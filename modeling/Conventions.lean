import Conventions.Log
import Conventions.Main
import Conventions.Proofs.Aggregator.LifeCycle
import Conventions.Proofs.Analysis.DesignPatterns
import Conventions.Proofs.Analysis.ErrorHandling
import Conventions.Proofs.Analysis.Imports
import Conventions.Proofs.Analysis.Naming
import Conventions.Proofs.Analysis.Registry
import Conventions.Proofs.Analysis.Technologies
import Conventions.Proofs.Analysis.Testing
import Conventions.Proofs.Casing
import Conventions.Proofs.Files.Completeness
import Conventions.Proofs.Files.Limit
import Conventions.Proofs.Files.Links
import Conventions.Proofs.Files.Reading
import Conventions.Proofs.Heuristics.Layout
import Conventions.Proofs.Heuristics.LetterCase
import Conventions.Proofs.Literal
import Conventions.Proofs.Repetition
import Conventions.Proofs.Repetition.Blocks
import Conventions.Proofs.Report.Advice
import Conventions.Proofs.Report.Json
import Conventions.Proofs.Report.Markdown
import Conventions.Proofs.Report.Ranking
import Conventions.Proofs.Run.Agreement
import Conventions.Proofs.Run.Coupling
import Conventions.Proofs.Run.Determinism
import Conventions.Proofs.Run.Sequential
import Conventions.Proofs.Run.Statistics
import Conventions.Proofs.Run.Summary
import Conventions.Proofs.Settings.Routes
import Conventions.Proofs.Summary.Prompt
import Conventions.Proofs.Syntax.Collected
import Conventions.Proofs.Technology.Projection
import Conventions.Proofs.Text.Octets
