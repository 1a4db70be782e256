import SpanScore.Feature.Distribution
import SpanScore.Feature.Number

/-!
# Heuristic scores

Two spans are compared by the distance between six of their metrics, a missing one counting as
zero.
-/

namespace SpanScore.Heuristic

def metricPaths : List String :=
  ["results.final_rmsd_angstrom", "results.final_energy_kcal_mol",
    "execution.simulation_time_ns", "execution.performance_ns_per_day", "analysis.mean_energy",
    "analysis.max_rmsd"]

def metrics (span : Json.Value) : List Float :=
  metricPaths.map fun path ↦ (Path.resolveFeature span path).getD 0

def distance (left right : List Float) : Float :=
  Distribution.sum (List.zipWith (fun x y ↦ (x - y).abs) left right)

def score (left right : Json.Value) : Float :=
  Distribution.clamp (1 / (1 + distance (metrics left) (metrics right)))

end SpanScore.Heuristic
