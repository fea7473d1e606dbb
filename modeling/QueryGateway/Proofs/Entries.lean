import Mathlib.Data.List.Nodup
import QueryGateway.Value.Json

/-!
Entries of objects: which keys are there, and what is found under them.
-/

set_option autoImplicit false
set_option relaxedAutoImplicit false

namespace QueryGateway.Proofs.Entries

theorem get?_put (fields : Fields) (key : String) (v : Value) :
    (fields.put key v).get? key = some v := by
  rw [Fields.put, Fields.get?]
  split
  · rename_i hkey
    obtain ⟨entry, hmem, hentry⟩ := List.any_eq_true.mp hkey
    have hsame : ((fun x : String × Value => x.1 == key) ∘
        fun x => if x.1 == key then (key, v) else x) = fun x => x.1 == key := by
      funext x
      simp only [Function.comp_apply]
      split <;> simp_all
    have hfound : (fields.find? fun x => x.1 == key).isSome = true :=
      List.find?_isSome.mpr ⟨entry, hmem, hentry⟩
    obtain ⟨found, hfound⟩ := Option.isSome_iff_exists.mp hfound
    have hfits := List.find?_some hfound
    rw [List.find?_map, hsame, hfound]
    simp only [Option.map_some, if_pos hfits]
  · rename_i hkey
    have hnone : (fields.find? fun x => x.1 == key) = none := by
      rw [List.find?_eq_none]
      intro x hx hfits
      exact hkey (List.any_eq_true.mpr ⟨x, hx, hfits⟩)
    rw [List.find?_append, hnone]
    simp

theorem get?_put_of_ne (fields : Fields) {key other : String} (v : Value) (h : other ≠ key) :
    (fields.put key v).get? other = fields.get? other := by
  have hkey : (key == other) = false := by simpa using Ne.symm h
  rw [Fields.put]
  split
  · have hsame : ((fun x : String × Value => x.1 == other) ∘
        fun x => if x.1 == key then (key, v) else x) = fun x => x.1 == other := by
      funext x
      simp only [Function.comp_apply]
      split <;> simp_all
    rw [Fields.get?, Fields.get?, List.find?_map, hsame]
    cases hfound : fields.find? fun x => x.1 == other with
    | none => rfl
    | some e =>
      have hother : e.1 = other := by simpa using List.find?_some hfound
      have hkept : e.1 ≠ key := hother ▸ h
      simp [hkept]
  · simp [Fields.get?, List.find?_append, hkey]

theorem has_cons (e : String × Value) (fields : Fields) (key : String) :
    Fields.has (e :: fields) key = (e.1 == key || fields.has key) := rfl

/-! ## Entries put in one by one -/

variable {fields others : Fields} {key : String} {v : Value} {e : String × Value}

private theorem has_iff_mem_keys : fields.has key = true ↔ key ∈ fields.keys := by
  simp [Fields.has, Fields.keys]

private theorem mem_put : e ∈ fields.put key v ↔ e = (key, v) ∨ (e ∈ fields ∧ e.1 ≠ key) := by
  rw [Fields.put]
  split
  · rename_i hhas
    obtain ⟨found, hfound, hkey⟩ := List.any_eq_true.mp hhas
    rw [List.mem_map]
    constructor
    · rintro ⟨x, hx, rfl⟩
      by_cases hsame : x.1 = key
      · exact .inl (by simp [hsame])
      · exact .inr (by simpa [hsame] using hx)
    · rintro (rfl | ⟨he, hne⟩)
      · exact ⟨found, hfound, by rw [if_pos hkey]⟩
      · exact ⟨e, he, by simp [hne]⟩
  · rename_i hhas
    rw [List.mem_append, List.mem_singleton, or_comm]
    refine or_congr_right (iff_self_and.mpr fun he hsame => hhas ?_)
    exact List.any_eq_true.mpr ⟨e, he, by simp [hsame]⟩

private theorem keys_put : (fields.put key v).keys =
    if fields.has key then fields.keys else fields.keys ++ [key] := by
  rw [Fields.put]
  split
  · rw [Fields.keys, Fields.keys, List.map_map]
    refine List.map_congr_left fun x _ => ?_
    simp only [Function.comp_apply]
    split
    · rename_i hsame
      exact (beq_iff_eq.mp hsame).symm
    · rfl
  · simp [Fields.keys]

private theorem nodup_put (h : fields.keys.Nodup) : (fields.put key v).keys.Nodup := by
  rw [keys_put]
  split
  · exact h
  · rename_i hhas
    refine List.nodup_append.mpr ⟨h, List.nodup_singleton key, ?_⟩
    rintro k hk _ hmem rfl
    rw [List.mem_singleton.mp hmem] at hk
    exact hhas (has_iff_mem_keys.mpr hk)

theorem nodup_update (h : fields.keys.Nodup) : (fields.update others).keys.Nodup := by
  induction others generalizing fields with
  | nil => exact h
  | cons e others ih => exact ih (nodup_put h)

theorem update_of_nodup (h : (Fields.keys (fields ++ others)).Nodup) :
    fields.update others = fields ++ others := by
  induction others generalizing fields with
  | nil => exact (List.append_nil fields).symm
  | cons e others ih =>
    have hfresh : ¬ fields.has e.1 = true := by
      intro hhas
      rw [Fields.keys, List.map_append, List.map_cons, List.nodup_middle, List.nodup_cons] at h
      exact h.1 (List.mem_append_left _ (has_iff_mem_keys.mp hhas))
    have hput : fields.put e.1 e.2 = fields ++ [e] := by rw [Fields.put, if_neg hfresh]
    have hrest : Fields.update (fields ++ [e]) others = fields ++ [e] ++ others :=
      ih (by rwa [List.append_assoc])
    rw [List.append_assoc] at hrest
    rw [Fields.update, List.foldl_cons, hput]
    exact hrest

/-- The entries that are not lost to a later one with the same key. -/
def lasting : Fields → Fields
  | [] => []
  | e :: es => if Fields.has es e.1 then lasting es else e :: lasting es

theorem mem_of_mem_lasting (h : e ∈ lasting fields) : e ∈ fields := by
  induction fields with
  | nil => cases h
  | cons o fields ih =>
    rw [lasting] at h
    split at h
    · exact List.mem_cons_of_mem o (ih h)
    · exact List.mem_cons.mpr ((List.mem_cons.mp h).imp_right ih)

theorem mem_update : e ∈ fields.update others ↔
    e ∈ lasting others ∨ (e ∈ fields ∧ others.has e.1 = false) := by
  induction others generalizing fields with
  | nil => simp [Fields.update, lasting, Fields.has]
  | cons o others ih =>
    have hstep : e ∈ (fields.put o.1 o.2).update others ↔ _ := ih
    rw [Fields.update, List.foldl_cons]
    refine hstep.trans ?_
    rw [mem_put, lasting, has_cons]
    by_cases hsame : e.1 = o.1
    · by_cases hhas : Fields.has others o.1 = true
      · simp [hsame, hhas]
      · simp [hsame, hhas, or_comm]
    · have hne : e ≠ o := fun h => hsame (congrArg Prod.fst h)
      split <;> simp [hsame, hne, Ne.symm hsame]

theorem get?_update_of_lacking (h : others.has key = false) :
    (fields.update others).get? key = fields.get? key := by
  induction others generalizing fields with
  | nil => rfl
  | cons o others ih =>
    rw [has_cons, Bool.or_eq_false_iff, beq_eq_false_iff_ne] at h
    have hrest : ((fields.put o.1 o.2).update others).get? key = (fields.put o.1 o.2).get? key :=
      ih h.2
    rw [get?_put_of_ne fields o.2 (Ne.symm h.1)] at hrest
    exact hrest

/-! ## Portable entries -/

theorem has_portableEntries (fields : Fields) (key : String) :
    Fields.has (Value.portableEntries fields) key = fields.has key := by
  induction fields with
  | nil => rfl
  | cons e fields ih =>
    obtain ⟨k, v⟩ := e
    rw [Value.portableEntries, has_cons, has_cons, ih]

end QueryGateway.Proofs.Entries
