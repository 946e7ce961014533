import Mathlib.Data.List.Basic

namespace SessionEngine

/-! The Go maps of the model are association lists, each key at most once; these are the facts
    about `List.lookup` their operations are proved with. -/

section

variable {α β : Type} [BEq α] [LawfulBEq α]

theorem lookup_filter_ne [DecidableEq α] {f path : α} (differ : f ≠ path) :
    ∀ l : List (α × β), (l.filter (·.1 ≠ path)).lookup f = l.lookup f
  | [] => rfl
  | (k, t) :: rest => by
    have kept := lookup_filter_ne differ rest
    by_cases same : k = path
    · subst same
      rw [List.filter_cons_of_neg (by simp), kept, List.lookup_cons, beq_eq_false_iff_ne.mpr differ]
    · rw [List.filter_cons_of_pos (by simpa using same), List.lookup_cons, List.lookup_cons, kept]

theorem lookup_of_mem_nodup {k : α} {t : β} :
    ∀ {l : List (α × β)}, (l.map Prod.fst).Nodup → (k, t) ∈ l → l.lookup k = some t
  | [], _, member => (List.not_mem_nil _ member).elim
  | (k', t') :: rest, nodup, member => by
    rw [List.map_cons, List.nodup_cons] at nodup
    rcases List.mem_cons.mp member with same | later
    · cases same
      exact List.lookup_cons_self
    · have differ : k ≠ k' := fun same => nodup.1 (by subst same; exact List.mem_map.mpr ⟨_, later, rfl⟩)
      rw [List.lookup_cons, beq_eq_false_iff_ne.mpr differ]
      exact lookup_of_mem_nodup nodup.2 later

theorem mem_of_lookup_eq_some {k : α} {t : β} :
    ∀ {l : List (α × β)}, l.lookup k = some t → (k, t) ∈ l
  | [], found => by cases found
  | (k', t') :: rest, found => by
    rw [List.lookup_cons] at found
    split at found
    · rename_i same
      cases found
      rw [beq_iff_eq.mp same]
      exact List.mem_cons_self _ _
    · exact List.mem_cons_of_mem _ (mem_of_lookup_eq_some found)

theorem lookup_eq_none_of_not_mem {k : α} :
    ∀ {l : List (α × β)}, k ∉ l.map Prod.fst → l.lookup k = none
  | [], _ => rfl
  | (key, t) :: rest, absent => by
    simp only [List.map_cons, List.mem_cons, not_or] at absent
    rw [List.lookup_cons, beq_eq_false_iff_ne.mpr absent.1]
    exact lookup_eq_none_of_not_mem absent.2

end

end SessionEngine
