import CodeHighlight.Grammars.Binding
import CodeHighlight.Assembly.Schedule
import CodeHighlight.CommandLine.Message
import CodeHighlight.CommandLine.Options
import CodeHighlight.CommandLine.Run
import CodeHighlight.Config
import CodeHighlight.Block
import CodeHighlight.Diagnostics
import CodeHighlight.Grammars.Builtin
import CodeHighlight.Grammars.Tokens
import CodeHighlight.Grammars.Words
import CodeHighlight.Highlight
import CodeHighlight.Html.Backend
import CodeHighlight.Main
import CodeHighlight.Markdown.Document
import CodeHighlight.Packages.Builtin
import CodeHighlight.Packages.Loader
import CodeHighlight.Rules.Action
import CodeHighlight.Scope.Table
import CodeHighlight.Session
import CodeHighlight.SiteBuild
import CodeHighlight.Text.Lowercase
import CodeHighlight.Proofs.Utf8
import CodeHighlight.Proofs.Outcomes
import CodeHighlight.Proofs.SpanText
import CodeHighlight.Proofs.Layout
import CodeHighlight.Proofs.Address
import CodeHighlight.Proofs.Entries
import CodeHighlight.Proofs.KeyOrder
import CodeHighlight.Proofs.SelectorScan
import CodeHighlight.Proofs.AssemblerInvariant
import CodeHighlight.Proofs.AssemblerSteps
import CodeHighlight.Proofs.BuildProgress
import CodeHighlight.Proofs.SingleFlight
import CodeHighlight.Proofs.HostSteps
import CodeHighlight.Proofs.Permanence
import CodeHighlight.Proofs.Resumption
import CodeHighlight.Proofs.Interruption
import CodeHighlight.Proofs.LoadOrder
import CodeHighlight.Proofs.OutermostElements
import CodeHighlight.Proofs.BlockWalk
import CodeHighlight.Proofs.BlockReport
import CodeHighlight.Proofs.FailureContainment
import CodeHighlight.Proofs.SpanClasses
import CodeHighlight.Proofs.BlockReplacement
import CodeHighlight.Proofs.SecondRun
import CodeHighlight.Proofs.CharacterData
import CodeHighlight.Proofs.Verdict
import CodeHighlight.Proofs.SharedOutcome
import CodeHighlight.Proofs.SpanMirror
import CodeHighlight.Proofs.CharacterCuts
import CodeHighlight.Proofs.CheckedFields
import CodeHighlight.Proofs.Validation
import CodeHighlight.Proofs.PartialRuns
import CodeHighlight.Proofs.Workload
import CodeHighlight.Proofs.DocumentIndependence
import CodeHighlight.Proofs.SelectorText
import CodeHighlight.Proofs.SiteLifeCycle
import CodeHighlight.Proofs.RegistryMerge
import CodeHighlight.Proofs.FirstFailure
import CodeHighlight.Proofs.TokenTiles
import CodeHighlight.Proofs.TableValidation
import CodeHighlight.Proofs.Lines
import CodeHighlight.Proofs.DescriptorFiles
import CodeHighlight.Proofs.PackageSources
import CodeHighlight.Proofs.FrontMatterBody
import CodeHighlight.Proofs.TokenFaults
import CodeHighlight.Proofs.TreeFaults
import CodeHighlight.Proofs.ReadingFaults
import CodeHighlight.Proofs.YamlContainment
import CodeHighlight.Proofs.CausePath
import CodeHighlight.Proofs.FailureMessages
import CodeHighlight.Proofs.RuleBuckets
import CodeHighlight.Proofs.RuleDispatch
import CodeHighlight.Proofs.QuotedSplit
import CodeHighlight.Proofs.ExtensionNames
import CodeHighlight.Proofs.PrintedTexts
import CodeHighlight.Proofs.RenderRuns
