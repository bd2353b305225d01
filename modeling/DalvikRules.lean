import DalvikRules.Main
import DalvikRules.Proofs.BoardContent
import DalvikRules.Proofs.ClassSpelling
import DalvikRules.Proofs.ForwardValues
import DalvikRules.Proofs.HandledValues
import DalvikRules.Proofs.InertInstructions
import DalvikRules.Proofs.KnownMethods
import DalvikRules.Proofs.MirroredRules
import DalvikRules.Proofs.RegisterRenaming
import DalvikRules.Proofs.ResultLog
import DalvikRules.Proofs.RiskDirection
import DalvikRules.Proofs.RuleDirectory
import DalvikRules.Proofs.RuleGrammar
import DalvikRules.Proofs.RunEffects
import DalvikRules.Proofs.SearchBound
import DalvikRules.Proofs.SearchDepth
import DalvikRules.Proofs.SequenceModes
import DalvikRules.Proofs.SnapshotContent
import DalvikRules.Proofs.StrictFindings
import DalvikRules.Proofs.TargetGrammar
import DalvikRules.Proofs.ValueHistory
