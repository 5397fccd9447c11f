import JavaToGo.Main
import JavaToGo.Proofs.Ambiguity.Constructs
import JavaToGo.Proofs.Analysis.Faults
import JavaToGo.Proofs.Analysis.Order
import JavaToGo.Proofs.Code.Arguments
import JavaToGo.Proofs.Code.FailedMembers
import JavaToGo.Proofs.Code.FileBalance
import JavaToGo.Proofs.Code.Literals
import JavaToGo.Proofs.Code.Mangling
import JavaToGo.Proofs.Code.Readability
import JavaToGo.Proofs.Conversion.FailureRecords
import JavaToGo.Proofs.Conversion.Receivers
import JavaToGo.Proofs.Conversion.Scopes
import JavaToGo.Proofs.Declaration.Completion
import JavaToGo.Proofs.Declaration.Components
import JavaToGo.Proofs.Declaration.DefaultCalls
import JavaToGo.Proofs.Declaration.DefaultConstructors
import JavaToGo.Proofs.Declaration.EnumNames
import JavaToGo.Proofs.Declaration.InheritedFields
import JavaToGo.Proofs.Declaration.InitialValues
import JavaToGo.Proofs.Declaration.ReturnValues
import JavaToGo.Proofs.Exceptions.Resources
import JavaToGo.Proofs.Hoisting.Soundness
import JavaToGo.Proofs.Loops.Iteration
import JavaToGo.Proofs.Lowering.Execution
import JavaToGo.Proofs.Lowering.Hoists
import JavaToGo.Proofs.Lowering.Increments
import JavaToGo.Proofs.Lowering.Places
import JavaToGo.Proofs.Lowering.TextBlocks
import JavaToGo.Proofs.Overloads.Resolution
import JavaToGo.Proofs.Settings.Loading
import JavaToGo.Proofs.Switch.Soundness
import JavaToGo.Proofs.Tree.Arena
import JavaToGo.Proofs.TypeMapping.Arity
