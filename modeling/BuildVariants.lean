import BuildVariants.Proofs.Analysis.Agreement
import BuildVariants.Proofs.Folding.StandIn
import BuildVariants.Proofs.Folding.Correspondence
import BuildVariants.Proofs.Folding.CarriedSuffix
import BuildVariants.Proofs.Suffix
import BuildVariants.Proofs.Analysis.Blocking
import BuildVariants.Proofs.Folding.FullFolding
import BuildVariants.Proofs.Analysis.Failures
import BuildVariants.Proofs.Folding.Monotone
import BuildVariants.Proofs.Analysis.Closure
import BuildVariants.Proofs.Analysis.Degradation
import BuildVariants.Proofs.Analysis.Locality
import BuildVariants.Proofs.Analysis.Contents
import BuildVariants.Proofs.Analysis.Account
import BuildVariants.Proofs.Analysis.TestIndependence
import BuildVariants.Proofs.Folding.Conservation
import BuildVariants.Proofs.Folding.Collision
import BuildVariants.Proofs.Folding.LastStep
import BuildVariants.Proofs.Analysis.Collisions
import BuildVariants.Proofs.Folding.TargetNames
import BuildVariants.Proofs.Folding.UnitTest
import BuildVariants.Proofs.Folding.Fallback
import BuildVariants.Proofs.ProjectGraph.FoundCycle
import BuildVariants.Proofs.ProjectGraph.LeastOrder
import BuildVariants.Proofs.Suffix.Tokens
import BuildVariants.Proofs.Suffix.Canonical
import BuildVariants.Proofs.Registry.History
import BuildVariants.Proofs.ProjectGraph.History
import BuildVariants.Proofs.SortedPairs
import BuildVariants.Proofs.RunLog
