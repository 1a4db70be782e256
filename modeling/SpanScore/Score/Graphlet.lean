import SpanScore.Feature.Distribution
import SpanScore.Feature.Number

/-!
# Graphlet scores

Two spans are compared by their graphlet histograms, or by a handful of run metrics when neither
has a histogram.
-/

namespace SpanScore.Graphlet

/-- Where a histogram may be, the first place with numbers deciding. -/
def histogramPaths : List String :=
  ["analysis.graphlet_histogram", "analysis.graphlet_distribution", "graphlet_histogram",
    "graphlet_distribution", "metadata.graphlet_histogram", "metadata.graphlets", "graphlets"]

/-- The run metrics that stand in for a histogram. -/
def metricPaths : List String :=
  ["results.final_rmsd_angstrom", "results.final_energy_kcal_mol",
    "execution.simulation_time_ns", "execution.performance_ns_per_day"]

def histogram (span : Json.Value) : List Float :=
  let series := histogramPaths.filterMap fun path ↦
    (Path.resolveArray span path).map fun items ↦ items.filterMap Json.Value.feature?
  (series.find? fun values ↦ !values.isEmpty).getD []

/-- The run metrics of a span, without those it lacks. -/
def metrics (span : Json.Value) : List Float :=
  metricPaths.filterMap (Path.resolveFeature span)

def score (left right : Json.Value) : Float :=
  if !(histogram left).isEmpty || !(histogram right).isEmpty then
    Distribution.overlap (histogram left) (histogram right)
  else if (metrics left).isEmpty || (metrics right).isEmpty then 0
  else Distribution.overlap (metrics left) (metrics right)

end SpanScore.Graphlet
