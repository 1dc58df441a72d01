namespace Conformance.Machine

-- How a process comes to its end.
inductive Ending where
  | exited (status : Nat)
  | killed (signal : Nat)
deriving DecidableEq, Repr

-- The status that a shell shows for an ending.
def Ending.status : Ending → Nat
  | exited status => status
  | killed signal => 128 + signal

namespace Signal

-- The numbers of the signals, their names, and what a shell says of a process
-- that one of them ended.
def table : List (Nat × String × String) := [
  (1, "HUP", "Hangup"), (2, "INT", "Interrupt"), (3, "QUIT", "Quit"),
  (4, "ILL", "Illegal instruction"), (5, "TRAP", "Trace/breakpoint trap"),
  (6, "ABRT", "Aborted"), (7, "BUS", "Bus error"), (8, "FPE", "Floating point exception"),
  (9, "KILL", "Killed"), (10, "USR1", "User defined signal 1"),
  (11, "SEGV", "Segmentation fault"), (12, "USR2", "User defined signal 2"),
  (13, "PIPE", "Broken pipe"), (14, "ALRM", "Alarm clock"), (15, "TERM", "Terminated"),
  (16, "STKFLT", "Stack fault"), (17, "CHLD", "Child exited"), (18, "CONT", "Continued"),
  (19, "STOP", "Stopped (signal)"), (20, "TSTP", "Stopped"), (21, "TTIN", "Stopped (tty input)"),
  (22, "TTOU", "Stopped (tty output)"), (23, "URG", "Urgent I/O condition"),
  (24, "XCPU", "CPU time limit exceeded"), (25, "XFSZ", "File size limit exceeded"),
  (26, "VTALRM", "Virtual timer expired"), (27, "PROF", "Profiling timer expired"),
  (28, "WINCH", "Window changed"), (29, "IO", "I/O possible"), (30, "PWR", "Power failure"),
  (31, "SYS", "Bad system call")]

-- Signals have numbers below this one.
def limit : Nat := 65

def interrupt : Nat := 2
def quit : Nat := 3
def kill : Nat := 9
def segmentation : Nat := 11
def pipe : Nat := 13
def term : Nat := 15

def name? (signal : Nat) : Option String :=
  (table.find? fun entry => entry.1 = signal).map fun entry => entry.2.1

def ofName? (name : String) : Option Nat :=
  (table.find? fun entry => entry.2.1 = name).map Prod.fst

-- The signal that a number or a name stands for. A name may have a common
-- front.
def ofWord? (word : String) : Option Nat :=
  let plain := if word.startsWith "SIG" then String.ofList (word.toList.drop 3) else word
  match plain.toNat? with
  | some n => if n < limit then some n else none
  | none => if plain = "EXIT" then some 0 else ofName? plain

-- The signals from this number on have no meaning of their own.
def firstFree : Nat := 34

def description (signal : Nat) : String :=
  match table.find? fun entry => entry.1 = signal with
  | some entry => entry.2.2
  | none =>
      if firstFree ≤ signal then "Real-time signal " ++ toString (signal - firstFree)
      else "Unknown signal " ++ toString signal

-- The names of all signals that a process can provide for, the free ones being
-- counted from the nearer end.
def shownName (signal : Nat) : String :=
  if signal = 0 then "EXIT"
  else if signal = firstFree then "RTMIN"
  else if signal = limit - 1 then "RTMAX"
  else if firstFree < signal ∧ signal < 50 then "RTMIN+" ++ toString (signal - firstFree)
  else if 50 ≤ signal then "RTMAX-" ++ toString (limit - 1 - signal)
  else if signal = 16 then "16"
  else (name? signal).getD (toString signal)

-- The signal with some name, from a lowest one on.
def ofShownName? (lowest : Nat) (name : String) : Option Nat :=
  ((List.range limit).drop lowest).find? fun signal => shownName signal = name

-- What a signal does to a process that has made no provision for it.
inductive Effect where
  | ends
  | stops
  | continues
  | nothing
deriving DecidableEq, Repr

def effect (signal : Nat) : Effect :=
  if signal ∈ [17, 23, 28] then .nothing
  else if signal = 18 then .continues
  else if signal ∈ [19, 20, 21, 22] then .stops
  else .ends

-- No process can provide for these.
def isSovereign (signal : Nat) : Bool :=
  signal = kill || signal = 19

end Signal

end Conformance.Machine
