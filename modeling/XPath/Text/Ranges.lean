/-! Character properties given by tables: increasing, disjoint ranges of code points. -/
namespace XPath.Text
set_option autoImplicit false

/-- Membership in a table. The search ends at the first range that lies above. -/
def inRanges (n : Nat) : List (Nat × Nat) → Bool
  | [] => false
  | (first, last) :: rest => if n < first then false else n ≤ last || inRanges n rest

theorem inRanges_of_mem {n first last : Nat} {table : List (Nat × Nat)}
    (sorted : table.Pairwise fun a b => a.2 < b.1) (valid : ∀ r ∈ table, r.1 ≤ r.2)
    (mem : (first, last) ∈ table) (above : first ≤ n) (below : n ≤ last) :
    inRanges n table = true := by
  induction table with
  | nil => cases mem
  | cons head rest ih =>
    obtain ⟨a, b⟩ := head
    simp only [List.pairwise_cons] at sorted
    rcases List.mem_cons.mp mem with same | later
    · cases same
      simp [inRanges, Nat.not_lt.mpr above, below]
    · have gap : b < first := sorted.1 _ later
      have start : a ≤ b := valid (a, b) (by simp)
      have more := ih sorted.2 (fun r h => valid r (by simp [h])) later
      simp [inRanges, more, show ¬ n < a by omega]

end XPath.Text
