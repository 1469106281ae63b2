import ShaderBackend.Text.Number

/-!
The signals of the system: their names, and what is said of a process that one of them has ended.
-/

namespace ShaderBackend.Shell.Signal

def named : List (Text × Nat) :=
  ([("EXIT", 0), ("HUP", 1), ("INT", 2), ("QUIT", 3), ("ILL", 4), ("TRAP", 5), ("ABRT", 6),
    ("BUS", 7), ("FPE", 8), ("KILL", 9), ("USR1", 10), ("SEGV", 11), ("USR2", 12), ("PIPE", 13),
    ("ALRM", 14), ("TERM", 15), ("CHLD", 17), ("CONT", 18), ("STOP", 19), ("TSTP", 20),
    ("TTIN", 21), ("TTOU", 22), ("URG", 23), ("XCPU", 24), ("XFSZ", 25), ("VTALRM", 26),
    ("PROF", 27), ("WINCH", 28), ("IO", 29), ("PWR", 30), ("SYS", 31), ("RTMIN", 34), ("RTMAX", 64)] :
    List (String × Nat)).map fun (name, n) => (name.toList, n)

def last : Nat := 64

/-- The name of a signal. Those between the first and the last of their kind are counted from the
nearer of the two, and others are called by their number. -/
def name (n : Nat) : Text :=
  match named.find? (·.2 == n) with
  | some (name, _) => name
  | none =>
    if 34 < n ∧ n < 50 then "RTMIN+" ++ Text.decimal (n - 34)
    else if 50 ≤ n ∧ n < last then "RTMAX-" ++ Text.decimal (last - n)
    else Text.decimal n

def upper (t : Text) : Text :=
  t.map Char.toUpper

def find? (t : Text) : Option Nat :=
  if ! t.isEmpty && t.all Char.isDigit then
    (Text.readNumber? 10 t).bind fun n => if n ≤ last then some n else none
  else (List.range (last + 1)).find? fun n => name n == upper t

/-- Signals that do nothing to a process that does not ask for them. -/
def harmless : List Nat :=
  [0, 17, 18, 23, 28]

/-- What is said of a process that a signal ended; nothing of one that was told to stop by hand or
wrote to nobody. -/
def text? : Nat → Option Text
  | 1 => some "Hangup"
  | 2 => none
  | 3 => some "Quit"
  | 4 => some "Illegal instruction"
  | 5 => some "Trace/breakpoint trap"
  | 6 => some "Aborted"
  | 7 => some "Bus error"
  | 8 => some "Floating point exception"
  | 9 => some "Killed"
  | 10 => some "User defined signal 1"
  | 11 => some "Segmentation fault"
  | 12 => some "User defined signal 2"
  | 13 => none
  | 14 => some "Alarm clock"
  | 15 => some "Terminated"
  | 16 => some "Stack fault"
  | 24 => some "CPU time limit exceeded"
  | 25 => some "File size limit exceeded"
  | 26 => some "Virtual timer expired"
  | 27 => some "Profiling timer expired"
  | 29 => some "I/O possible"
  | 30 => some "Power failure"
  | 31 => some "Bad system call"
  | n =>
    if 34 ≤ n ∧ n ≤ last then some ("Real-time signal " ++ Text.decimal (n - 34))
    else some ("Unknown signal " ++ Text.decimal n)

end ShaderBackend.Shell.Signal
