/-!
# Wait statuses

How a process ended, as the system reports it: a word whose lowest seven bits are zero if the
process left by itself, with its code in the next eight, and otherwise give the signal that ended
it.

* `describe_ofExitCode`: a process that left by itself is described by its code.
-/

namespace TimingSweep

structure WaitStatus where
  word : UInt32
  deriving DecidableEq

namespace WaitStatus

/-- The names of the signals from one on. -/
def signalNames : List String :=
  ["HUP", "INT", "QUIT", "ILL", "TRAP", "ABRT", "BUS", "FPE", "KILL", "USR1", "SEGV",
    "USR2", "PIPE", "ALRM", "TERM", "STKFLT", "CHLD", "CONT", "STOP", "TSTP", "TTIN", "TTOU",
    "URG", "XCPU", "XFSZ", "VTALRM", "PROF", "WINCH", "IO", "PWR", "SYS"]

/-- A signal by its number and, if it has one, its name. -/
def signal (number : Nat) : String :=
  match number, signalNames[number - 1]? with
  | _ + 1, some name => toString number ++ " (SIG" ++ name ++ ")"
  | number, _ => toString number

def ofExitCode (code : UInt8) : WaitStatus := ⟨code.toUInt32 * 256⟩

/-- A process ended by a signal. -/
def ofSignal (number : Nat) : WaitStatus := ⟨.ofNat number⟩

/-- The process left by itself with code zero. -/
def isSuccess (s : WaitStatus) : Bool := s.word = 0

/-- A word in hexadecimal, and in decimal with its highest bit as a sign. -/
def unrecognised (word : UInt32) : String :=
  "unrecognised wait status: " ++ toString word.toInt32.toInt ++ " 0x" ++
    .ofList (Nat.toDigits 16 word.toNat)

def describe (s : WaitStatus) : String :=
  let word := s.word.toNat
  let low := word % 0x80
  if low = 0 then "exit status: " ++ toString (word / 0x100 % 0x100)
  else if low < 0x7F then
    "signal: " ++ signal low ++ if word / 0x80 % 2 = 1 then " (core dumped)" else ""
  else if word % 0x100 = 0x7F then
    "stopped (not terminated) by signal: " ++ signal (word / 0x100 % 0x100)
  else if word = 0xFFFF then "continued (WIFCONTINUED)"
  else unrecognised s.word

theorem toNat_ofExitCode (code : UInt8) : (ofExitCode code).word.toNat = code.toNat * 256 := by
  have := code.toNat_lt
  simp only [ofExitCode, UInt32.toNat_mul, UInt8.toNat_toUInt32]
  exact Nat.mod_eq_of_lt (by simp; omega)

theorem describe_ofExitCode (code : UInt8) :
    (ofExitCode code).describe = "exit status: " ++ toString code.toNat := by
  have := code.toNat_lt
  have low : code.toNat * 256 % 128 = 0 := by omega
  have high : code.toNat * 256 / 256 % 256 = code.toNat := by omega
  simp only [describe, toNat_ofExitCode, low, high, if_true]

end WaitStatus

end TimingSweep
