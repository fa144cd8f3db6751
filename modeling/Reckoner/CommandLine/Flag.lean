import Reckoner.Text.Digit
import Reckoner.Text.Quoted

/-! The options of the command line, the ways to write them, and how a single argument is
understood. Abbreviations, values that are attached, negative numbers and the separator are treated
as by the standard argument parser in its releases 3.11.0 to 3.11.8. -/
namespace Reckoner.CommandLine

inductive Flag where
  | help
  | expression
  | logLevel
  deriving DecidableEq, Repr

namespace Flag

def spellings : List (String × Flag) :=
  [("-h", help), ("--help", help), ("-e", expression), ("--expression", expression),
    ("--log-level", logLevel)]

def ofSpelling? (s : String) : Option Flag := spellings.lookup s

def ofLetter? (c : Char) : Option Flag := ofSpelling? (String.ofList ['-', c])

def title (flag : Flag) : String :=
  "/".intercalate ((spellings.filter (·.2 = flag)).map (·.1))

end Flag

inductive UsageError where
  | ambiguous (argument : String) (spellings : List String)
  | valueMissing (flag : Flag)
  | valueIgnored (flag : Flag) (value : String)
  | unrecognized (arguments : List String)
  deriving DecidableEq, Repr

def UsageError.message : UsageError → String
  | ambiguous argument spellings =>
    "ambiguous option: " ++ argument ++ " could match " ++ ", ".intercalate spellings
  | valueMissing flag => "argument " ++ flag.title ++ ": expected one argument"
  | valueIgnored flag value =>
    "argument " ++ flag.title ++ ": ignored explicit argument " ++ Text.quote value
  | unrecognized arguments => "unrecognized arguments: " ++ " ".intercalate arguments

/-- What an argument is taken for. An option may have a value attached to it; after one dash such a
value may also hold further options of one letter. -/
inductive Argument where
  | plain (text : String)
  | separator
  | option (flag : Flag) (oneDash : Bool) (attached? : Option String)
  | unknownOption (text : String)
  deriving DecidableEq, Repr

namespace Argument

def splitValue? (cs : List Char) : Option (List Char × List Char) :=
  match cs.dropWhile (· ≠ '=') with
  | [] => none
  | _ :: value => some (cs.takeWhile (· ≠ '='), value)

def hasOneDash (cs : List Char) : Bool := cs.head? == some '-' && cs[1]? != some '-'

/-- A dash and digits, or digits with a point before the last of them; a line end may follow. -/
def isNegativeNumber (cs : List Char) : Bool :=
  let digits (ds : List Char) : Bool := !ds.isEmpty && ds.all Text.isScriptDigit
  let body := if cs.getLast? = some '\n' then cs.dropLast else cs
  match body with
  | '-' :: rest =>
    digits rest ||
      match rest.dropWhile Text.isScriptDigit with
      | '.' :: fraction => digits fraction
      | _ => false
  | _ => false

/-- The options that an argument may abbreviate, with the value attached to it. After two dashes any
beginning of a spelling will do; after one dash the letter counts and the rest is the value. -/
def abbreviated (cs : List Char) : List (String × Flag × Option String) :=
  if hasOneDash cs then
    let spelling := String.ofList (cs.take 2)
    (Flag.ofSpelling? spelling).toList.map fun flag =>
      (spelling, flag, some (String.ofList (cs.drop 2)))
  else
    let (beginning, value?) :=
      match splitValue? cs with
      | some (beginning, value) => (beginning, some (String.ofList value))
      | none => (cs, none)
    (Flag.spellings.filter fun s => beginning.isPrefixOf s.1.toList).map fun s =>
      (s.1, s.2, value?)

def spelledOut? (cs : List Char) : Option Argument :=
  match Flag.ofSpelling? (String.ofList cs) with
  | some flag => some (.option flag (hasOneDash cs) none)
  | none =>
    (splitValue? cs).bind fun (spelling, value) =>
      (Flag.ofSpelling? (String.ofList spelling)).map fun flag =>
        .option flag (hasOneDash spelling) (some (String.ofList value))

/-- What begins with a dash is an option unless it is a dash alone, a negative number, or no known
option and holds a space. -/
def ofText (s : String) : Except UsageError Argument :=
  let cs := s.toList
  if cs.head? ≠ some '-' ∨ cs.length = 1 then .ok (.plain s)
  else
    match spelledOut? cs with
    | some argument => .ok argument
    | none =>
      match abbreviated cs with
      | [] => .ok (if isNegativeNumber cs || cs.contains ' ' then .plain s else .unknownOption s)
      | [(_, flag, value?)] => .ok (.option flag (hasOneDash cs) value?)
      | candidates => .error (.ambiguous s (candidates.map (·.1)))

/-- Understands the arguments from left to right; after the separator all are plain. -/
def ofTexts : List String → Except UsageError (List Argument)
  | [] => .ok []
  | s :: rest =>
    if s = "--" then .ok (.separator :: rest.map .plain)
    else do
      let argument ← ofText s
      return argument :: (← ofTexts rest)

end Argument

end Reckoner.CommandLine
