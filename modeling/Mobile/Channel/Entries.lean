import Mobile.Channel.Concurrent

/-!
# The channel's entry points together

The interleaved callers, reader and closers, and beside them the two things they
leave out: `WriteLine` called from outside without `mutex_`, as the SMS manager
does, and a line served or the channel closed while a caller sleeps.  The last two
cannot happen as long as the sleeping caller keeps `mutex_`; what is proved of the
runs here holds whether or not the wait gives it up.
-/

namespace Mobile.Channel.Entries

open Mobile.Token.Scan Mobile.Channel.Types Mobile.Channel.ProcessLine
open Mobile.Channel.SendCommand Mobile.Channel.Concurrent

inductive EntryAction (ι κ : Type*)
  | sys (a : SysAction ι κ)
  | serveAsleep (i : ι) (line : Line)
  | closeAsleep (i : ι)
  | writeLine (s ctrl : Line) (ret : Int)

variable {ι κ : Type*} [DecidableEq ι] [DecidableEq κ]

inductive EntryStep : Sys ι κ → EntryAction ι κ → Sys ι κ → Prop
  | sys {s a t} (step : Step s a t) : EntryStep s (.sys a) t
  | serveAsleep {s i c n line ch callers} (pc : s.callers i = .asleep c n)
      (hch : processLine s.chan line = some ch)
      (notify : Notified s.chan ch s.callers callers) :
      EntryStep s (.serveAsleep i line) { s with chan := ch, callers := callers }
  | closeAsleep {s i c n callers} (pc : s.callers i = .asleep c n)
      (notify : Notified s.chan (readerClose s.chan) s.callers callers) :
      EntryStep s (.closeAsleep i) { s with chan := readerClose s.chan, callers := callers }
  | writeLine (s : Sys ι κ) (line ctrl : Line) :
      EntryStep s (.writeLine line ctrl (WriteLine.writeLine s.chan line ctrl).1)
        { s with chan := (WriteLine.writeLine s.chan line ctrl).2 }

/-- `rsp_`, `rsp_prefix_` and `sms_pdu_` are null. -/
structure NoCommand (ch : ATChannel) : Prop where
  rsp : ch.rsp = none
  rspPrefix : ch.rspPrefix = none
  smsPdu : ch.smsPdu = none

end Mobile.Channel.Entries
