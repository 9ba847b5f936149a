import FieldRules.Main
import FieldRules.Json.Decoding
import FieldRules.Json.Reader
import FieldRules.Proofs.TokenCoverage
import FieldRules.Proofs.ScanFailure
import FieldRules.Proofs.WrittenRules
import FieldRules.Proofs.CaretPlacement
import FieldRules.Proofs.ClausePlaces
import FieldRules.Proofs.FirstError
import FieldRules.Proofs.PrintedLexemes
import FieldRules.Proofs.SplittableTexts
import FieldRules.Proofs.ShownLine
import FieldRules.Proofs.JoinedRules
import FieldRules.Proofs.JoinedTexts
import FieldRules.Proofs.JsonRoundTrip
import FieldRules.Proofs.OutputLines
import FieldRules.Proofs.CommandOutcome
import FieldRules.Proofs.EventRecord
import FieldRules.Proofs.PatternChoice
import FieldRules.Proofs.CallSessions
import FieldRules.Proofs.ResumedParsing
import FieldRules.Proofs.IndentedTrees
import FieldRules.Proofs.ScanLoop
