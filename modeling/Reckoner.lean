import Reckoner.Session
import Reckoner.Form.Record
import Reckoner.Main
import Reckoner.Proofs.Expression.Grammar
import Reckoner.Proofs.Expression.ShiftReduce
import Reckoner.Proofs.Expression.Evaluation
import Reckoner.Proofs.Expression.Conservation
import Reckoner.Proofs.Expression.Alphabet
import Reckoner.Proofs.Expression.Faults
import Reckoner.Proofs.Expression.Derivation
import Reckoner.Proofs.Expression.Textual
import Reckoner.Proofs.Expression.Joining
import Reckoner.Proofs.Expression.Groups
import Reckoner.Proofs.Expression.FirstFault
import Reckoner.Proofs.Number.Lettering
import Reckoner.Proofs.Text.Quoting
import Reckoner.Proofs.Keypad.Typing
import Reckoner.Proofs.Keypad.Reports
import Reckoner.Proofs.CommandLine.Screen
import Reckoner.Proofs.Log.Records
import Reckoner.Proofs.Session.Coherence
import Reckoner.Proofs.Session.Logging
import Reckoner.Proofs.Expression.Recognition
import Reckoner.Proofs.Expression.Spacing
import Reckoner.Proofs.Expression.Diagnosis
import Reckoner.Proofs.CommandLine.Defects
import Reckoner.Proofs.Log.Configuration
import Reckoner.Proofs.CommandLine.Settings
import Reckoner.Proofs.Session.Thresholds
import Reckoner.Proofs.CommandLine.Replay
import Reckoner.Proofs.Expression.Reductions
import Reckoner.Proofs.Expression.Ascending
import Reckoner.Proofs.Number.Display
import Reckoner.Proofs.CommandLine.Literals
