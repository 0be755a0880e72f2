import Conventions.Proofs.Run.Sequential
import Conventions.Proofs.Summary.Exchange
import Conventions.Run.Project

/-!
# A run with a summary

The summary is asked for at the end, with the profile that the run has anyway. Whatever comes of it,
the profile stays as it is and has the text that came, or none. So a run with a summary is a run
without one, except that it is lost altogether where the client of the network raises what nobody
foresees.
-/
namespace Conventions

open Summary

namespace Summarizer

variable {s : Settings} {env : Environment}

end Summarizer

end Conventions
