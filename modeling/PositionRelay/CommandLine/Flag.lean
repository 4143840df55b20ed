import PositionRelay.Binary64.Reading
import PositionRelay.CommandLine.Number

/-!
# Flags of a command

A command takes flags with one value each, by their long name or a short letter, the value attached
or as the next argument, and each flag at most once. An argument that looks like a flag is never taken
for a value. A flag is settled, and its value read, when the next known flag or the end is reached, so
an unknown argument right after it is reported first.
-/
namespace PositionRelay.CommandLine

inductive Value where
  | text (s : String)
  | number (n : Nat)
  | double (v : Binary64)
deriving DecidableEq, Repr

/-- How the value of a flag is read. -/
inductive Kind where
  | text
  /-- A number up to `max`, read as a signed 64-bit number first. -/
  | upTo (max : Nat)
  | word
  | double
  /-- The longest step of a walk, without its sign. -/
  | step
deriving DecidableEq, Repr

/-- A walk draws from both sides of zero, so twice its longest step has to be finite. -/
def readStep (text : String) : Except String Binary64 :=
  match Binary64.read text with
  | .error e => .error e.message
  | .ok v =>
      if ((Binary64.ofNat 2).mul v).isFinite then .ok v.abs
      else .error s!"step must be finite and at most f64::MAX / 2, got {text}"

def Kind.read (kind : Kind) (text : String) : Except String Value :=
  match kind with
  | .text => .ok (.text text)
  | .upTo max =>
      match readSigned text with
      | .error e => .error e.message
      | .ok n =>
          if n < 0 ∨ max < n then .error s!"{n} is not in 0..={max}" else .ok (.number n.toNat)
  | .word => ((readWord text).map Value.number).mapError NumberError.message
  | .double => ((Binary64.read text).map Value.double).mapError Binary64.ReadError.message
  | .step => (readStep text).map Value.double

structure Flag where
  long : String
  short? : Option Char := none
  kind : Kind
deriving DecidableEq, Repr

/-- A flag in messages: its long name and a name for its value. -/
def Flag.title (f : Flag) : String :=
  let value := f.long.toUpper.map fun c => if c = '-' then '_' else c
  s!"--{f.long} <{value}>"

inductive UsageError where
  | unexpected (argument : String)
  | missingValue (flag : Flag)
  | repeated (flag : Flag)
  | invalidValue (text : String) (flag : Flag) (reason : String)
  /-- A value attached to a flag that takes none. -/
  | surplusValue (text argument : String)
deriving DecidableEq, Repr

def UsageError.message : UsageError → String
  | unexpected argument => s!"unexpected argument '{argument}' found"
  | missingValue flag => s!"a value is required for '{flag.title}' but none was supplied"
  | repeated flag => s!"the argument '{flag.title}' cannot be used multiple times"
  | invalidValue text flag reason => s!"invalid value '{text}' for '{flag.title}': {reason}"
  | surplusValue text argument =>
      s!"unexpected value '{text}' for '{argument}' found; no more were expected"

/-- Why the arguments yield no settings. -/
inductive Halt where
  | help
  | version
  | misuse (error : UsageError)
deriving DecidableEq, Repr

/-- The values given so far, and the flag that waits to be settled, with its value if it has come. -/
structure Settings where
  given : List (Flag × Value) := []
  pending : Option (Flag × Option String) := none
deriving Repr

namespace Settings

def give (s : Settings) (flag : Flag) (text : String) : Except Halt Settings :=
  if s.given.any fun p => p.1 == flag then .error (.misuse (.repeated flag))
  else
    match flag.kind.read text with
    | .ok value => .ok { s with given := s.given ++ [(flag, value)] }
    | .error reason => .error (.misuse (.invalidValue text flag reason))

/-- Settles the flag that waits. -/
def settle (s : Settings) : Except Halt Settings :=
  match s.pending with
  | none => .ok s
  | some (flag, none) => .error (.misuse (.missingValue flag))
  | some (flag, some text) => { s with pending := none }.give flag text

/-- A known flag, with its value if one is attached. -/
def flag (s : Settings) (f : Flag) (attached : Option String) : Except Halt Settings :=
  match s.settle with
  | .error halt => .error halt
  | .ok s =>
      match attached with
      | some text => s.give f text
      | none => .ok { s with pending := some (f, none) }

def halt (s : Settings) (why : Halt) : Except Halt Settings :=
  match s.settle with
  | .error halt => .error halt
  | .ok _ => .error why

def unexpected (argument : List Char) : Except Halt Settings :=
  .error (.misuse (.unexpected (String.ofList argument)))

/-- An argument that begins with two hyphens. -/
def long (s : Settings) (flags : List Flag) (cs : List Char) : Except Halt Settings :=
  let name := cs.takeWhile (· != '=')
  let attached := match cs.drop name.length with
    | _ :: text => some (String.ofList text)
    | [] => none
  let dashed := '-' :: '-' :: name
  let plainFlag (why : Halt) : Except Halt Settings :=
    match attached with
    | none => s.halt why
    | some text => .error (.misuse (.surplusValue text (String.ofList dashed)))
  if name = "help".toList then plainFlag .help
  else if name = "version".toList then plainFlag .version
  else
    match flags.find? fun f => f.long.toList == name with
    | some f => s.flag f attached
    | none => unexpected dashed

/-- An argument that begins with one hyphen: a letter and, unless nothing follows, its value. -/
def short (s : Settings) (flags : List Flag) (c : Char) (rest : List Char) :
    Except Halt Settings :=
  if c = 'h' then s.halt .help
  else if c = 'V' then s.halt .version
  else
    match flags.find? fun f => f.short? == some c with
    | some f =>
        s.flag f (match rest with
          | [] => none
          | '=' :: text => some (String.ofList text)
          | text => some (String.ofList text))
    | none => unexpected ['-', c]

/-- An argument that does not look like a flag: the value of the flag before it. -/
def plain (s : Settings) (text : String) : Except Halt Settings :=
  match s.pending with
  | some (f, none) => .ok { s with pending := some (f, some text) }
  | _ => .error (.misuse (.unexpected text))

/-- Takes in arguments one by one; nothing may follow two hyphens alone. -/
def takeAll (s : Settings) (flags : List Flag) : List String → Except Halt Settings
  | [] => s.settle
  | a :: rest =>
      let next : Except Halt Settings := match a.toList, rest with
        | ['-', '-'], [] => .ok s
        | ['-', '-'], b :: _ => unexpected b.toList
        | '-' :: '-' :: cs, _ => s.long flags cs
        | '-' :: c :: cs, _ => s.short flags c cs
        | _, _ => s.plain a
      match next with
      | .ok s => s.takeAll flags rest
      | .error halt => .error halt

/-- The value given for a flag. -/
def value? (s : Settings) (long : String) : Option Value :=
  (s.given.find? fun p => p.1.long == long).map Prod.snd

def text (s : Settings) (long fallback : String) : String :=
  match s.value? long with
  | some (.text t) => t
  | _ => fallback

def number (s : Settings) (long : String) (fallback : Nat) : Nat :=
  match s.value? long with
  | some (.number n) => n
  | _ => fallback

def double (s : Settings) (long : String) (fallback : Binary64) : Binary64 :=
  match s.value? long with
  | some (.double v) => v
  | _ => fallback

end Settings

/-- Reads the arguments of a command. -/
def read (flags : List Flag) (arguments : List String) : Except Halt Settings :=
  ({} : Settings).takeAll flags arguments

end PositionRelay.CommandLine
