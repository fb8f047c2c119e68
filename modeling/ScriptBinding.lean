import ScriptBinding.AliasTable
import ScriptBinding.Command.Basic
import ScriptBinding.Command.Reading
import ScriptBinding.Command.Table
import ScriptBinding.Config
import ScriptBinding.Config.Loading
import ScriptBinding.Context
import ScriptBinding.Event.Basic
import ScriptBinding.Event.Bus
import ScriptBinding.Event.Filter
import ScriptBinding.Event.Trigger
import ScriptBinding.Failure
import ScriptBinding.FileTree
import ScriptBinding.Function.Call
import ScriptBinding.Function.Signature
import ScriptBinding.Function.Table
import ScriptBinding.Host
import ScriptBinding.Item.Arguments
import ScriptBinding.Item.Basic
import ScriptBinding.Item.Reading
import ScriptBinding.Item.Running
import ScriptBinding.JobQueue
import ScriptBinding.Loader
import ScriptBinding.Main
import ScriptBinding.Node.Basic
import ScriptBinding.Node.Entries
import ScriptBinding.Node.Line
import ScriptBinding.Node.Parser
import ScriptBinding.Number.Binary64
import ScriptBinding.Number.Decimal
import ScriptBinding.Number.Integer
import ScriptBinding.Options
import ScriptBinding.Path
import ScriptBinding.Pattern.Basic
import ScriptBinding.Pattern.Notation
import ScriptBinding.Priority
import ScriptBinding.Program
import ScriptBinding.Proofs.Claiming
import ScriptBinding.Proofs.CommandTable
import ScriptBinding.Proofs.FunctionOwnership
import ScriptBinding.Proofs.Headers
import ScriptBinding.Proofs.Jobs
import ScriptBinding.Proofs.Locality
import ScriptBinding.Proofs.MainThreadLoading
import ScriptBinding.Proofs.PhaseOrder
import ScriptBinding.Proofs.StructureKinds
import ScriptBinding.Proofs.Traces
import ScriptBinding.Regex.Basic
import ScriptBinding.Regex.ByteRange
import ScriptBinding.Regex.CharSet
import ScriptBinding.Regex.Code
import ScriptBinding.Regex.Compile
import ScriptBinding.Regex.Footprint
import ScriptBinding.Regex.Matcher
import ScriptBinding.Regex.Parser
import ScriptBinding.Regex.Reduced
import ScriptBinding.Registry
import ScriptBinding.Script
import ScriptBinding.Session
import ScriptBinding.StandardRegistry
import ScriptBinding.Structure.Aliases
import ScriptBinding.Structure.Basic
import ScriptBinding.Structure.Command
import ScriptBinding.Structure.Custom
import ScriptBinding.Structure.Event
import ScriptBinding.Structure.Function
import ScriptBinding.Structure.Options
import ScriptBinding.Structure.Phase
import ScriptBinding.Structure.Variables
import ScriptBinding.Table
import ScriptBinding.Text.Blank
import ScriptBinding.Text.Case
import ScriptBinding.Text.Cut
import ScriptBinding.Text.Inspect
import ScriptBinding.Text.Letter
import ScriptBinding.Text.Reference
import ScriptBinding.Text.Terminal
import ScriptBinding.Value.Basic
import ScriptBinding.Value.Class
import ScriptBinding.Value.Standard
import ScriptBinding.Variable.DefaultName
import ScriptBinding.Variable.Store
import ScriptBinding.Proofs.FinishedScripts
import ScriptBinding.Proofs.Unloading
import ScriptBinding.Proofs.Ownership
import ScriptBinding.Proofs.MainThreadRuns
import ScriptBinding.Proofs.Ledger
import ScriptBinding.Proofs.WorkerLoading
import ScriptBinding.Proofs.FailedCalls
import ScriptBinding.Proofs.OptionValues
import ScriptBinding.Proofs.BodyCalls
import ScriptBinding.Proofs.Reports
import ScriptBinding.Proofs.HostBodies
import ScriptBinding.Proofs.ResolvedCalls
import ScriptBinding.Proofs.BindingHistory
import ScriptBinding.Proofs.BufferedEvents
import ScriptBinding.Proofs.EventBinding
import ScriptBinding.Proofs.Withdrawals
import ScriptBinding.Proofs.Lifetimes
import ScriptBinding.Proofs.Deferral
import ScriptBinding.Proofs.Indentation
import ScriptBinding.Proofs.Dispatch
import ScriptBinding.Proofs.Tallies
import ScriptBinding.Proofs.Handing
import ScriptBinding.Proofs.FunctionCounts
import ScriptBinding.Proofs.TriggerCounts
import ScriptBinding.Proofs.Settling
import ScriptBinding.Proofs.CommandCounts
import ScriptBinding.Proofs.Balances
import ScriptBinding.Proofs.Counters
import ScriptBinding.Proofs.CharacterSets
import ScriptBinding.Proofs.CaseClasses
import ScriptBinding.Proofs.ExpressionReading
import ScriptBinding.Proofs.ExpressionTraces
import ScriptBinding.Proofs.CodePaths
import ScriptBinding.Proofs.MachineRuns
import ScriptBinding.Proofs.MachineTraces
import ScriptBinding.Proofs.PatternNotation
import ScriptBinding.Proofs.PatternGrammar
import ScriptBinding.Proofs.PatternMatching
import ScriptBinding.Proofs.LowerCase
import ScriptBinding.Proofs.CommandLabels
import ScriptBinding.Proofs.Plans
import ScriptBinding.Proofs.Workshop
import ScriptBinding.Proofs.Renewal
import ScriptBinding.Proofs.Twins
import ScriptBinding.Proofs.TwinLoads
import ScriptBinding.Proofs.Generations
import ScriptBinding.Proofs.Isolation
import ScriptBinding.Proofs.Restoration
import ScriptBinding.Proofs.Readiness
import ScriptBinding.Proofs.Reloading
import ScriptBinding.Proofs.Agreement
import ScriptBinding.Proofs.FunctionNames
import ScriptBinding.Proofs.TreeWriting
import ScriptBinding.Proofs.HeaderPriorities
import ScriptBinding.Proofs.FailureLines
import ScriptBinding.Proofs.ReportedLines
import ScriptBinding.Proofs.NodeVisits
import ScriptBinding.Proofs.Diagnostics
import ScriptBinding.Proofs.CallDepth
import ScriptBinding.Proofs.ArgumentBinding
import ScriptBinding.Proofs.ClassNames
import ScriptBinding.Proofs.SignatureWriting
import ScriptBinding.Proofs.CodeParts
import ScriptBinding.Proofs.EventHeaders
import ScriptBinding.Proofs.BodyAccounts
import ScriptBinding.Proofs.BodyComposition
import ScriptBinding.Proofs.Forwarding
import ScriptBinding.Proofs.Subscriptions
import ScriptBinding.Proofs.OptionWriting
import ScriptBinding.Proofs.Substitutions
import ScriptBinding.Proofs.AliasLines
import ScriptBinding.Proofs.DefaultNames
import ScriptBinding.Proofs.Seeding
import ScriptBinding.Proofs.Templates
import ScriptBinding.Proofs.AliasMeanings
import ScriptBinding.Proofs.RegistryCalls
import ScriptBinding.Proofs.PatternAcceptance
import ScriptBinding.Proofs.CommandSections
import ScriptBinding.Proofs.ArgumentLists
import ScriptBinding.Proofs.Settings
import ScriptBinding.Proofs.PathOrder
import ScriptBinding.Proofs.FolderScans
