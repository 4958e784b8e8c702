-- Reading a command line against a grammar. A value is taken in when the next
-- option or place begins, so a fault in it shows only then.
import Lookalike.CommandLine.Grammar
import Lookalike.Decimal.Reading
import Lookalike.Ordered

namespace Lookalike.CommandLine

-- Powers are those of the core library, whatever else is imported.
attribute [local instance (high)] instPowNat

/-! ## Faults -/

/-- Why a command line is not carried out. -/
inductive Refusal where
  | help
  | version
  | nothingGiven
  | commandMissing
  | unknownCommand
  | unknownArgument
  | placeMissing
  | invalidValue
  | unreadableValue
  | repeated
  | unneededValue
  deriving DecidableEq

/-! ## Values -/

inductive Value where
  | switch
  | count (n : Nat)
  | number (x : Float)
  | path (p : Path)
  | text (s : String)

def Kind.read (k : Kind) (s : String) : Except Refusal Value :=
  match k with
  | count =>
    match Decimal.readNat? (2 ^ (64 : Nat) - 1) s with
    | some n => .ok (.count n)
    | none => .error .unreadableValue
  | number =>
    match Decimal.readFloat? s with
    | some x => .ok (.number x)
    | none => .error .unreadableValue
  | path => if s = "" then .error .invalidValue else .ok (.path ⟨s⟩)
  | choice words => if words.contains s then .ok (.text s) else .error .invalidValue
  | _ => .ok (.text s)

/-- The values given so far, by the names of their slots. -/
abbrev Given := List (String × List Value)

/-! ## The state of a reading -/

/-- What is given, the slot that is open with its texts, whether that slot still waits for a text,
whether options have ended, and whether the place is taken. -/
structure State where
  given : Given
  pending : Option (Slot × List String)
  waiting : Bool
  plain : Bool
  placed : Bool

namespace State

/-- Nothing has been read. -/
def start : State := ⟨[], none, false, false, false⟩

/-- Take in the texts of a slot. -/
def store (s : State) (slot : Slot) (texts : List String) : Except Refusal State :=
  match slot.kind with
  | .help => .error .help
  | .version => .error .version
  | kind => do
    if kind.takesValue && texts.isEmpty then throw .invalidValue
    if !slot.many && (Ordered.get? slot.name s.given).isSome then throw .repeated
    let values ← if kind.takesValue then texts.mapM kind.read else pure [.switch]
    return { s with
      given := Ordered.alter slot.name (fun old => old.getD [] ++ values) s.given
      waiting := false }

/-- Take in the open slot. -/
def settle (s : State) : Except Refusal State :=
  match s.pending with
  | none => .ok s
  | some (slot, texts) => store { s with pending := none } slot texts

/-- A slot with all its texts. -/
def close (s : State) (slot : Slot) (texts : List String) : Except Refusal State := do
  (← s.settle).store slot texts

/-- A slot that waits for a text. -/
def await (s : State) (slot : Slot) : Except Refusal State := do
  return { (← s.settle) with pending := some (slot, []), waiting := true }

/-- A slot for which there may be a text already. -/
def begin (s : State) (slot : Slot) (text : Option String) : Except Refusal State :=
  match text with
  | some t => s.close slot [t]
  | none => if slot.kind.takesValue then s.await slot else s.close slot []

def readName (s : State) (g : Grammar) (name : String) (text : Option String) :
    Except Refusal State :=
  match g.options.find? fun o => o.name == name with
  | none => .error .unknownArgument
  | some slot =>
    if !slot.kind.takesValue && text.isSome then .error .unneededValue else s.begin slot text

/-- Options by their letters; what follows the letter of one that takes a value is its value. -/
def readLetters (s : State) (g : Grammar) : List Char → Except Refusal State
  | [] => .ok s
  | c :: rest =>
    match g.options.find? fun o => o.letter == some c with
    | none => .error .unknownArgument
    | some slot =>
      if slot.kind.takesValue then
        match rest with
        | [] => s.begin slot none
        | '=' :: value => s.begin slot (some (String.ofList value))
        | value => s.begin slot (some (String.ofList value))
      else do readLetters (← s.begin slot none) g rest

/-- A text for the slot that waits. -/
def supply (s : State) (text : String) : State :=
  { s with pending := s.pending.map fun p => (p.1, p.2 ++ [text]), waiting := false }

/-- The fault of a text for which there is no place. -/
def misplaced (s : State) (g : Grammar) (text : String) : Refusal :=
  if g.commands.isEmpty || (s.plain && g.commands.contains text) then .unknownArgument
  else .unknownCommand

/-- A text for the place. A place for many texts stays open. -/
def readPlace (s : State) (g : Grammar) (text : String) : Except Refusal State := do
  match g.place with
  | none => throw (s.misplaced g text)
  | some slot =>
    if slot.many then
      let isOpen := s.pending.any fun p => p.1 == slot
      let s ← if isOpen then pure s else pure { (← s.settle) with pending := some (slot, []) }
      return { s.supply text with placed := true }
    else if s.placed then throw (s.misplaced g text)
    else
      return { (← s.settle) with pending := some (slot, [text]), waiting := false, placed := true }

end State

/-! ## Lines -/

/-- How a reading ends: with all arguments, or at a command with the arguments behind it. -/
inductive Outcome where
  | finished (state : State)
  | command (state : State) (name : String) (rest : List String)

/-- The name and the value of a long option. -/
def splitValue (cs : List Char) : String × Option String :=
  let name := cs.takeWhile (· != '=')
  match cs.drop name.length with
  | _ :: value => (String.ofList name, some (String.ofList value))
  | [] => (String.ofList name, none)

/-- Read one argument that is no command. -/
def State.readArgument (s : State) (g : Grammar) (a : String) : Except Refusal State :=
  if s.plain then s.readPlace g a
  else
    match a.toList with
    | ['-', '-'] => .ok { s with plain := true }
    | '-' :: '-' :: cs => s.readName g (splitValue cs).1 (splitValue cs).2
    | '-' :: c :: cs => s.readLetters g (c :: cs)
    | _ => if s.waiting then .ok (s.supply a) else s.readPlace g a

/-- Read arguments up to a command. -/
def readArguments (g : Grammar) : State → List String → Except Refusal Outcome
  | s, [] => .ok (.finished s)
  | s, a :: rest =>
    if !s.plain && !s.waiting && g.commands.contains a then .ok (.command s a rest)
    else do readArguments g (← s.readArgument g a) rest

/-! ## Invocations -/

/-- A command with what was given to it, and what was given in front of it. -/
structure Invocation where
  command : String
  given : Given
  before : Given

/-- Help for a command: whatever else is asked for is no command. -/
def refuseHelp : List String → Refusal
  | [] => .help
  | [c] => if outer.commands.contains c then .help else .unknownCommand
  | _ => .unknownCommand

/-- Read the arguments behind a command. -/
def readInner (command : String) (args : List String) : Except Refusal Given :=
  match inner? command with
  | none => .error .unknownCommand
  | some g => do
    match ← readArguments g .start args with
    | .command .. => throw .unknownCommand
    | .finished s =>
      let s ← s.settle
      match g.place with
      | some slot =>
        if command != "init" && (Ordered.get? slot.name s.given).isNone then throw .placeMissing
      | none => pure ()
      return s.given

def read (args : List String) : Except Refusal Invocation := do
  match ← readArguments outer .start args with
  | .finished s =>
    let s ← s.settle
    throw (if s.given.isEmpty then .nothingGiven else .commandMissing)
  | .command s name rest =>
    if name = "help" then throw (refuseHelp rest)
    let given ← readInner name rest
    return ⟨name, given, (← s.settle).given⟩

/-! ## What was given -/

namespace Given

/-- The values of a slot. -/
def all (g : Given) (name : String) : List Value := (Ordered.get? name g).getD []

/-- Whether a slot was given. -/
def has (g : Given) (name : String) : Bool := !(g.all name).isEmpty

/-- The whole number of a slot. -/
def count? (g : Given) (name : String) : Option Nat :=
  (g.all name).findSome? fun v =>
    match v with
    | .count n => some n
    | _ => none

/-- The double of a slot. -/
def number? (g : Given) (name : String) : Option Float :=
  (g.all name).findSome? fun v =>
    match v with
    | .number x => some x
    | _ => none

/-- The paths of a slot, in order. -/
def paths (g : Given) (name : String) : List Path :=
  (g.all name).filterMap fun v =>
    match v with
    | .path p => some p
    | _ => none

def path? (g : Given) (name : String) : Option Path := (g.paths name).head?

/-- The texts of a slot, in order. -/
def texts (g : Given) (name : String) : List String :=
  (g.all name).filterMap fun v =>
    match v with
    | .text s => some s
    | _ => none

end Given
end Lookalike.CommandLine
