import Reckoner.CommandLine.Arguments
import Reckoner.CommandLine.Flag

/-! From the texts on the command line to what is to be done. Arguments are gathered as by the
standard argument parser in its releases 3.11.0 to 3.11.8. -/
namespace Reckoner.CommandLine
open Form (Value)

structure Gathered where
  keys? : Option String := none
  expression : Value := .null
  logLevel : Value := .text Arguments.defaultLevel
  unused : List String := []

namespace Gathered

/-- The first plain argument is the keys, further ones stay unused. -/
def plain (g : Gathered) (s : String) : Gathered :=
  match g.keys? with
  | none => { g with keys? := some s }
  | some _ => { g with unused := g.unused ++ [s] }

def give (g : Gathered) (flag : Flag) (value : Value) : Gathered :=
  match flag with
  | .help => g
  | .expression => { g with expression := value }
  | .logLevel => { g with logLevel := value }

def toForm (g : Gathered) : Form :=
  [("keys", match g.keys? with | none => .null | some s => .text s),
    ("expression", g.expression), ("log_level", g.logLevel)]

end Gathered

structure Demand where
  help : Bool
  flag : Flag
  value? : Option String

/-- Help takes no value: after one dash, what is attached to it is read as further options. A letter
that is no option is refused, as in the releases 3.11.0 to 3.11.8 of the standard argument parser;
later ones differ. -/
def Demand.ofLetters (help : Bool) (flag : Flag) : List Char → Except UsageError Demand
  | [] => .ok ⟨help || flag = .help, flag, none⟩
  | c :: rest =>
    if flag ≠ .help then .ok ⟨help, flag, some (String.ofList (c :: rest))⟩
    else
      match Flag.ofLetter? c with
      | some next => ofLetters true next rest
      | none => .error (.valueIgnored flag (String.ofList (c :: rest)))

def Demand.ofOption (flag : Flag) (oneDash : Bool) (attached? : Option String) :
    Except UsageError Demand :=
  match attached? with
  | none => .ok ⟨flag = .help, flag, none⟩
  | some value =>
    if flag ≠ .help then .ok ⟨false, flag, some value⟩
    else if oneDash && value ≠ "" then ofLetters false flag value.toList
    else .error (.valueIgnored flag value)

/-- The separator is dropped also where it is attached as a value, and what is left is no text. So
it is in the releases 3.11.0 to 3.11.8 of the standard argument parser; later ones differ. -/
def attachedValue (s : String) : Value := if s = "--" then .compound else .text s

/-- Goes through the arguments from left to right, up to a request for help. An option without an
attached value takes the next argument, which must be plain. The separator is dropped before the
keys and right after them; anywhere else it counts as unused. -/
def gather (g : Gathered) : List Argument → Except UsageError (Option Gathered)
  | [] => .ok (some g)
  | .plain s :: .separator :: rest =>
    match g.keys? with
    | none => gather (g.plain s) rest
    | some _ => gather ((g.plain s).plain "--") rest
  | .plain s :: rest => gather (g.plain s) rest
  | .separator :: rest =>
    match g.keys? with
    | none => gather g rest
    | some _ => gather (g.plain "--") rest
  | .unknownOption s :: rest => gather { g with unused := g.unused ++ [s] } rest
  | .option flag oneDash attached? :: rest =>
    match Demand.ofOption flag oneDash attached? with
    | .error e => .error e
    | .ok demand =>
      match demand.flag, demand.value?, rest with
      | .help, _, _ => .ok none
      | flag, some value, rest =>
        if demand.help then .ok none else gather (g.give flag (attachedValue value)) rest
      | flag, none, .plain s :: rest =>
        if demand.help then .ok none else gather (g.give flag (.text s)) rest
      | flag, none, _ => .error (.valueMissing flag)

inductive Invocation where
  | help
  | misused (e : UsageError)
  | refused (defects : List Form.Defect)
  | accepted (a : Arguments)
  deriving DecidableEq, Repr

/-- Arguments are checked for the way they are written before they are checked for what they say. -/
def Invocation.ofTexts (texts : List String) : Invocation :=
  match (Argument.ofTexts texts).bind (gather {}) with
  | .error e => misused e
  | .ok none => help
  | .ok (some g) =>
    if !g.unused.isEmpty then misused (.unrecognized g.unused)
    else
      match Arguments.ofForm g.toForm with
      | .error defects => refused defects
      | .ok a => accepted a

end Reckoner.CommandLine
