import FragmentBuild.Shell.Arithmetic

/-! Signals: their numbers and names, what they do to a process, and what is printed about a
process that one of them has ended. -/
namespace FragmentBuild.Shell.Signal

def named : List (Nat × String × String) :=
  [(1, "HUP", "Hangup"), (2, "INT", "Interrupt"), (3, "QUIT", "Quit"), (4, "ILL", "Illegal instruction"),
    (5, "TRAP", "Trace/breakpoint trap"), (6, "ABRT", "Aborted"), (7, "BUS", "Bus error"),
    (8, "FPE", "Floating point exception"), (9, "KILL", "Killed"),
    (10, "USR1", "User defined signal 1"), (11, "SEGV", "Segmentation fault"),
    (12, "USR2", "User defined signal 2"), (13, "PIPE", "Broken pipe"), (14, "ALRM", "Alarm clock"),
    (15, "TERM", "Terminated"), (16, "16", "Stack fault"), (17, "CHLD", ""), (18, "CONT", ""),
    (19, "STOP", ""), (20, "TSTP", ""), (21, "TTIN", ""), (22, "TTOU", ""), (23, "URG", ""),
    (24, "XCPU", "CPU time limit exceeded"), (25, "XFSZ", "File size limit exceeded"),
    (26, "VTALRM", "Virtual timer expired"), (27, "PROF", "Profiling timer expired"),
    (28, "WINCH", ""), (29, "IO", "I/O possible"), (30, "PWR", "Power failure"),
    (31, "SYS", "Bad system call")]

/-- How many signals there are, with the one that means the end of a process. -/
def count : Nat := 65

def name (signal : Nat) : String :=
  match named.lookup signal with
  | some (name, _) => name
  | none =>
    if signal = 0 then "EXIT"
    else if signal < 34 then toString signal
    else if signal = 34 then "RTMIN"
    else if signal < 50 then "RTMIN+" ++ toString (signal - 34)
    else if signal < 64 then "RTMAX-" ++ toString (64 - signal)
    else "RTMAX"

def description (signal : Nat) : String :=
  match named.lookup signal with
  | some (_, text) => text
  | none => "Real-time signal " ++ toString (signal - 34)

/-- What is printed about a process that a signal has ended: nothing if that is no surprise. -/
def notice (signal : Nat) : String :=
  if signal = 2 ∨ signal = 13 then "" else description signal

/-- Whether a signal does nothing to a process that has not asked for it. -/
def isHarmless (signal : Nat) : Bool := [0, 17, 18, 19, 20, 21, 22, 23, 28].contains signal

/-- The signal that a number or a name stands for, in letters of either case. The end of a process
is no signal that can be sent by its name. -/
def ofText? (first : Nat) (text : Bytes) : Option Nat :=
  if !text.isEmpty && text.all Char.isDigit then
    let number := numberOf 10 text
    if number < count then some number else none
  else
    let wanted := text.map Char.toUpper
    (List.range count).find? fun signal =>
      first ≤ signal && (name signal).toList.map Char.toUpper == wanted

end FragmentBuild.Shell.Signal
