import FragmentBuild.Json.Reader
import FragmentBuild.Main
import FragmentBuild.Run
import FragmentBuild.Shelf
import FragmentBuild.SystemTool
import FragmentBuild.Proofs.StaleArchives
import FragmentBuild.Proofs.ToolFailure
import FragmentBuild.Proofs.UnitIsolation
import FragmentBuild.Proofs.CallCounts
import FragmentBuild.Proofs.Sessions
import FragmentBuild.Proofs.Footprints
import FragmentBuild.Proofs.ScratchEndings
import FragmentBuild.Proofs.OrphanedArchives
import FragmentBuild.Proofs.CleanBuilds
import FragmentBuild.Proofs.CleanPackages
import FragmentBuild.Proofs.Cleanup
import FragmentBuild.Proofs.WorkContainment
import FragmentBuild.Proofs.PolicyComposition
import FragmentBuild.Proofs.ManifestReading
import FragmentBuild.Proofs.CallHistories
import FragmentBuild.Proofs.PointerTypes
import FragmentBuild.Proofs.SortedEntries
import FragmentBuild.Proofs.DistinctKeys
import FragmentBuild.Proofs.CommandRuns
import FragmentBuild.Proofs.UnitPolicies
import FragmentBuild.Proofs.WrittenJson
import FragmentBuild.Proofs.UnitBuilds
import FragmentBuild.Proofs.UnitOutcomes
import FragmentBuild.Proofs.BuildLosses
import FragmentBuild.Proofs.BuildOutcome
import FragmentBuild.Proofs.RuleSets
import FragmentBuild.Proofs.ShownSources
import FragmentBuild.Proofs.MutedPrograms
import FragmentBuild.Proofs.Logs
import FragmentBuild.Proofs.SideBySide
import FragmentBuild.Proofs.ShadowedRules
import FragmentBuild.Proofs.PointerTowers
import FragmentBuild.Proofs.PointerLayers
import FragmentBuild.Proofs.Relocation
import FragmentBuild.Proofs.TidyDisks
import FragmentBuild.Proofs.ShelfSteps
import FragmentBuild.Proofs.ShelfHistories
import FragmentBuild.Proofs.SourceLines
import FragmentBuild.Proofs.TypeSpellings
import FragmentBuild.Proofs.PathSpellings
import FragmentBuild.Proofs.LinkPlans
import FragmentBuild.Proofs.ExaminedPaths
import FragmentBuild.Proofs.ToolOrders
