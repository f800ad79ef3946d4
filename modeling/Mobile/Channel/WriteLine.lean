import Mobile.Channel.Types

/-!
# Writing a line

`ATChannel::WriteLine` of `channel.cc`.  Its loops run over the script of
`write()` results, and the log records each result with the bytes it took.
-/

namespace Mobile.Channel.WriteLine

open Mobile.Token.Scan Mobile.Channel.ReadLine Mobile.Channel.Types

def writeText (ch : ATChannel) (text : Line) : List WriteResult → Bool × ATChannel
  | [] =>
    if text = [] then (true, { ch with writes := [] })
    else (true, { ch.log (.write (.wrote text.length) text) with writes := [] })
  | r :: rest =>
    if text = [] then (true, { ch with writes := r :: rest }) else
    match r with
    | .wrote count =>
      writeText (ch.log (.write r (text.take count))) (text.drop count) rest
    | .failed .eintr => writeText (ch.log (.write r [])) text rest
    | .failed _ => (false, { ch.log (.write r []) with writes := rest })

/-- The loop for the terminator, which also repeats a `write()` that took
nothing. -/
def writeCtrl (ch : ATChannel) (c : Line) : List WriteResult → Bool × ATChannel
  | [] => (true, { ch.log (.write (.wrote 1) c) with writes := [] })
  | r :: rest =>
    match r with
    | .wrote 0 => writeCtrl (ch.log (.write r [])) c rest
    | .wrote (_ + 1) => (true, { ch.log (.write r c) with writes := rest })
    | .failed .eintr => writeCtrl (ch.log (.write r [])) c rest
    | .failed _ => (false, { ch.log (.write r []) with writes := rest })

def writeLine (ch : ATChannel) (s ctrl : Line) : Int × ATChannel :=
  let ch := ch.log (.writeLine s ctrl)
  if !ch.isOpen then (ATErrno.errorChannelClosed.code, ch) else
  let main := writeText ch s ch.writes
  if !main.1 then (ATErrno.errorGeneric.code, main.2) else
  let last := writeCtrl main.2 ((ctrl ++ [0]).take 1) main.2.writes
  if !last.1 then (ATErrno.errorGeneric.code, last.2) else
  (ATErrno.success.code, last.2)

end Mobile.Channel.WriteLine
