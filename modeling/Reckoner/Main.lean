import Reckoner.CommandLine.Run

/-! The command line program: the screen goes to the standard output, log records and complaints go
to the standard error stream. Misuse is reported in the words of the argument parser. For arguments
that are refused, the defects are listed in a form of this program's own; it is not the report that
the validation package prints. -/
namespace Reckoner

private def usageLine : String :=
  "usage: basic-calculator [-h] [-e EXPRESSION] [--log-level LOG_LEVEL] [keys]"

private def complaintLine (defect : Form.Defect) : String :=
  (defect.field?.map (· ++ ": ")).getD "" ++ defect.complaint.message

/-- What an invocation says on the standard error stream besides its log. -/
private def complaints : CommandLine.Invocation → List String
  | .misused e => [usageLine, "basic-calculator: error: " ++ e.message]
  | .refused defects => usageLine :: "basic-calculator: error:" :: defects.map complaintLine
  | .help | .accepted _ => []

end Reckoner

def main (arguments : List String) : IO UInt32 := do
  let invocation := Reckoner.CommandLine.Invocation.ofTexts arguments
  let answer := Reckoner.CommandLine.Answer.ofInvocation invocation
  for line in answer.lines ++ Reckoner.complaints invocation do
    IO.eprintln line
  IO.print answer.output
  return answer.exitCode.toUInt32
