import SpanScore.Proofs.Double.Amounts
import SpanScore.Proofs.Double.Distance
import SpanScore.Score.Graphlet
import SpanScore.Score.Heuristic
import SpanScore.Score.Mapper

/-!
# Symmetry of structural scores

A structural score does not depend on which of the two values is the left one, to the last bit:
distances and sums are the same doubles either way, and every choice of features looks at both
sides alike.
-/

namespace SpanScore

namespace Distribution

/-- The shorter list is padded, whichever side it is on. -/
theorem distances_comm (left right : List Float) : distances left right = distances right left := by
  fun_induction distances left right with
  | case1 => rw [distances]
  | case2 first rest ih => rw [distances, ih, Double.abs_sub_comm]
  | case3 first rest ih => rw [distances, ih, Double.abs_sub_comm]
  | case4 first rest first' rest' ih => rw [distances, ih, Double.abs_sub_comm]

theorem overlap_comm (left right : List Float) : overlap left right = overlap right left := by
  rw [overlap, overlap, distances_comm, Bool.and_comm]

end Distribution

open SpanScore.Distribution

theorem Graphlet.score_comm (left right : Json.Value) : score left right = score right left := by
  rw [score, score, overlap_comm, overlap_comm (metrics left), Bool.or_comm,
    Bool.or_comm (metrics left).isEmpty]

namespace Mapper

theorem penalty_comm (left right : Float) : penalty left right = penalty right left := by
  rw [penalty, penalty, Double.add_comm, Double.abs_sub_comm]

theorem profileScore_comm (left right : List Float) :
    profileScore left right = profileScore right left := by
  rw [profileScore, profileScore, overlap_comm, penalty_comm, Bool.or_comm]

theorem score_comm (left right : Json.Value) : score left right = score right left :=
  profileScore_comm (profile left) (profile right)

end Mapper

namespace Heuristic

theorem distance_comm (left right : List Float) : distance left right = distance right left := by
  rw [distance, distance, List.zipWith_comm]
  simp only [Double.abs_sub_comm]

theorem score_comm (left right : Json.Value) : score left right = score right left := by
  rw [score, score, distance_comm]

end Heuristic

end SpanScore
