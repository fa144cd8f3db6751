import Reckoner.Text.Capital
import Reckoner.Text.Quoted

/-! Thresholds for log records, given as numbers or by name. -/
namespace Reckoner.Log

/-- The level that stands in where none is given or the name is unknown. -/
def warningLevel : Int := 30

def chosenNames : List String := ["DEBUG", "INFO", "WARNING", "ERROR", "CRITICAL"]

def namedLevels : List (String × Int) :=
  [("DEBUG", 10), ("INFO", 20), ("WARNING", 30), ("WARN", 30), ("ERROR", 40), ("CRITICAL", 50),
    ("FATAL", 50), ("NOTSET", 0)]

/-- Two more names are taken and stand for no level: the default layout of a record, which is a
text, and the table of all layouts. -/
def layoutName : String := "BASIC_FORMAT"

def defaultLayout : String := "%(levelname)s:%(name)s:%(message)s"

def layoutTableName : String := "_STYLES"

def layoutTable : String :=
  "\x7b'%': (<class 'logging.PercentStyle'>, '%(levelname)s:%(name)s:%(message)s'), " ++
  "'\x7b': (<class 'logging.StrFormatStyle'>, " ++
  "'\x7blevelname\x7d:\x7bname\x7d:\x7bmessage\x7d'), " ++
  "'$': (<class 'logging.StringTemplateStyle'>, " ++
  "'$\x7blevelname\x7d:$\x7bname\x7d:$\x7bmessage\x7d')\x7d"

/-- What was set as a level although it is none: a text, or what is not even a text. -/
inductive UnknownLevel where
  | text (name : String)
  | noText (shown : String)
  deriving DecidableEq, Repr

def UnknownLevel.message : UnknownLevel → String
  | text name => "Unknown level: " ++ Text.quote name
  | noText shown => "Level not an integer or a valid string: " ++ shown

inductive LevelChoice where
  | unset
  | number (level : Int)
  | name (text : String)
  deriving DecidableEq, Repr

/-- Numbers count as they are. Names are looked up in capitals; an unknown one and the empty text
mean the warning level. -/
def LevelChoice.resolve : LevelChoice → Except UnknownLevel Int
  | unset => .ok warningLevel
  | number level => .ok level
  | name text =>
    let name := Text.capitals text
    if name = layoutName then .error (.text defaultLayout)
    else if name = layoutTableName then .error (.noText layoutTable)
    else .ok ((namedLevels.lookup name).getD warningLevel)

end Reckoner.Log
