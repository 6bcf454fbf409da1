/-!
# Coroutines — clocks

Time stands still while anyone can go on. Whoever waits for a moment sets an alarm, and when nobody
can go on the clock moves to the next one.
-/

namespace SqlClient

/-- The time in milliseconds, and the moments that someone waits for. -/
structure Clock where
  now : Nat
  alarms : List Nat
deriving DecidableEq, Repr

namespace Clock

/-- A clock at zero. -/
def start : Clock := ⟨0, []⟩

/-- Sets an alarm: the moment that is `ms` milliseconds away. -/
def setAlarm (ms : Nat) (c : Clock) : Nat × Clock :=
  let moment := c.now + ms
  (moment, { c with alarms := moment :: c.alarms })

/-- Whether a moment has come. -/
def hasCome (moment : Nat) (c : Clock) : Bool := moment ≤ c.now

/-- The clock at its next alarm. -/
def advance (c : Clock) : Option Clock :=
  (c.alarms.filter (c.now < ·)).min?.map fun moment => ⟨moment, c.alarms.filter (moment < ·)⟩

end Clock

end SqlClient
