import WhileTyping.Span
import WhileTyping.Ty.Basic
import WhileTyping.Ty.Union
import WhileTyping.Ty.Printer
import WhileTyping.Ty.Kind
import WhileTyping.Text.Blank
import WhileTyping.Text.Quoted
import WhileTyping.Value
import WhileTyping.File
import WhileTyping.Check
import WhileTyping.Registry.Build
import WhileTyping.Subtyping.Rules
import WhileTyping.Subtyping.Bound
import WhileTyping.Subtyping.CommonFields
import WhileTyping.Env
import WhileTyping.Registry.WrittenType
import WhileTyping.Expr.Typing
import WhileTyping.Session
import WhileTyping.Proofs.Everywhere
import WhileTyping.Proofs.SameTypes
import WhileTyping.Proofs.Below
import WhileTyping.Proofs.Success
import WhileTyping.Proofs.TrailAdequacy
import WhileTyping.Proofs.BuiltRegistry
import WhileTyping.Proofs.CircularAliases
import WhileTyping.Proofs.ValueSoundness
import WhileTyping.Proofs.Preorder
import WhileTyping.Proofs.SettledTypes
import WhileTyping.Proofs.UnionBound
import WhileTyping.Proofs.Annotations
import WhileTyping.Proofs.Scope
import WhileTyping.Proofs.StatementEnds
import WhileTyping.Proofs.SettledBlocks
import WhileTyping.Proofs.Sites
import WhileTyping.Proofs.AcceptedFile
import WhileTyping.Proofs.BareTrees
import WhileTyping.Proofs.BranchFlow
import WhileTyping.Proofs.Runs
import WhileTyping.Proofs.LoopFlow
import WhileTyping.Proofs.CompleteTypes
import WhileTyping.Proofs.TypingRules
import WhileTyping.Proofs.Certificate
import WhileTyping.Proofs.BoundedSearch
import WhileTyping.Proofs.LookUps
import WhileTyping.Proofs.SessionRuns
import WhileTyping.Proofs.DeclarationOrder
import WhileTyping.Proofs.RepeatedCheck
import WhileTyping.Proofs.SecondCheck
import WhileTyping.Proofs.BlockScope
import WhileTyping.Proofs.WriteOnce
import WhileTyping.Proofs.Expansion
import WhileTyping.Proofs.LargerRegistry
import WhileTyping.Proofs.ErrorSpans
import WhileTyping.Proofs.UnplacedTrees
import WhileTyping.Proofs.SpanIndependence
import WhileTyping.Proofs.InternalFailures
import WhileTyping.Proofs.BranchJoin
import WhileTyping.Proofs.LeastUnion
import WhileTyping.Proofs.RunningBound
import WhileTyping.Proofs.UnionFields
import WhileTyping.Proofs.FieldWrites
import WhileTyping.Proofs.Recomputation
import WhileTyping.Proofs.UnionLaws
import WhileTyping.Proofs.Interchange
import WhileTyping.Proofs.LiteralTypes
import WhileTyping.Proofs.WrittenTypes
import WhileTyping.Proofs.TypeTexts
import WhileTyping.Proofs.DebugLog
