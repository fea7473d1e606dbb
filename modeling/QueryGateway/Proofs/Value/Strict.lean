import QueryGateway.Proofs.Number.Shortest
import QueryGateway.Proofs.Value.Portable

/-!
Strict values, whose numbers are all finite, and the texts that they are written as. The grammar has
no word for a number that is not finite, so one such number anywhere in a value leaves a text
outside the grammar: outside of strings, no text of the grammar has a letter that begins such a
word.
-/

set_option autoImplicit false
set_option relaxedAutoImplicit false

namespace QueryGateway.Proofs.Value.Strict

open QueryGateway
open QueryGateway.Number (Binary64)
open QueryGateway.Value.Json
open QueryGateway.Proofs.Number.Shortest (isNumber_text)
open QueryGateway.Proofs.Value.Grammar
open QueryGateway.Proofs.Value.Portable

/-- A value of the kinds that JSON has, all its numbers finite. -/
abbrev IsStrict (v : Value) : Prop := IsJson (fun x => x.isFinite = true) v

theorem isStrict_float_iff {x : Binary64} : IsStrict (.float x) ↔ x.isFinite = true := by
  constructor
  · rintro ⟨⟩
    assumption
  · exact fun h => .float h

theorem isStrict_list_iff {vs : List Value} : IsStrict (.list vs) ↔ ∀ v ∈ vs, IsStrict v := by
  constructor
  · rintro ⟨⟩
    assumption
  · exact .list

theorem isStrict_object_iff {es : Fields} (hkeys : es.keys.Nodup) :
    IsStrict (.object es) ↔ ∀ e ∈ es, IsStrict e.2 := by
  constructor
  · rintro ⟨⟩
    assumption
  · exact .object hkeys

/-! ## Strict values as they are written -/

private theorem items_eq (layout : Layout) (vs : List Value) :
    items layout vs = vs.map (chars layout) := by
  induction vs with
  | nil => rfl
  | cons v vs ih => rw [items, ih, List.map_cons]

private theorem entries_eq (layout : Layout) (es : Fields) :
    entries layout es =
      es.map fun e => string e.1.toList ++ ':' :: ' ' :: chars layout e.2 := by
  induction es with
  | nil => rfl
  | cons e es ih =>
    obtain ⟨k, v⟩ := e
    rw [entries, ih, List.map_cons]

private theorem isValue_number {x : Binary64} (h : x.isFinite = true) : IsValue (number x) := by
  cases x with
  | nan => cases h
  | infinite s => cases h
  | finite s m e => exact .number (isNumber_text s m e)

private theorem isValue_chars {v : Value} (h : IsStrict v) (layout : Layout) :
    IsValue (chars layout v) := by
  induction h generalizing layout with
  | null => exact .word (.head _)
  | bool b =>
    cases b with
    | false => exact .word (.tail _ (.tail _ (.head _)))
    | true => exact .word (.tail _ (.head _))
  | int i => exact .number (isNumber_ofInt i)
  | float hx => exact isValue_number hx
  | text s => exact .string (isString_string s.toList)
  | @list vs _ ih =>
    rw [chars, items_eq]
    refine isValue_listContainer layout fun s hs => ?_
    obtain ⟨v, hv, rfl⟩ := List.mem_map.mp hs
    exact ih v hv layout.inner
  | @object es _ _ ih =>
    rw [chars, entries_eq]
    refine isValue_objectContainer layout fun s hs => ?_
    obtain ⟨e, he, rfl⟩ := List.mem_map.mp hs
    exact ⟨e.1.toList, chars layout.inner e.2, rfl, ih e he layout.inner⟩

/-! ## What stands outside of strings -/

/-- Where a reader of a text stands: outside of strings, in one, or behind a backslash in one. -/
inductive Place
  | outside | inside | escaped

def Place.next : Place → Char → Place
  | .outside, c => if c = '"' then .inside else .outside
  | .inside, c => if c = '"' then .outside else if c = '\\' then .escaped else .inside
  | .escaped, _ => .inside

/-- The characters that stand outside of strings, and the quotes that open them. -/
def bare : Place → List Char → List Char
  | _, [] => []
  | .outside, c :: s => c :: bare (Place.next .outside c) s
  | p, c :: s => bare (p.next c) s

/-- A character that begins one of the words for numbers that are not finite, behind a sign. -/
def BeginsWord (c : Char) : Prop := c = 'N' ∨ c = 'I'

instance : DecidablePred BeginsWord := fun c => inferInstanceAs (Decidable (c = 'N' ∨ c = 'I'))

/-- A piece of text that leaves no string open, with such a character outside of strings just if `p`
holds. -/
def Strays (p : Prop) (s : List Char) : Prop :=
  ∃ m, (∀ t, bare .outside (s ++ t) = m ++ bare .outside t) ∧ ((∃ c ∈ m, BeginsWord c) ↔ p)

variable {p q : Prop} {s t : List Char}

private theorem Strays.congr (h : Strays p s) (hpq : p ↔ q) : Strays q s := by
  obtain ⟨m, hm, hp⟩ := h
  exact ⟨m, hm, hp.trans hpq⟩

theorem Strays.unique (hp : Strays p s) (hq : Strays q s) : p ↔ q := by
  obtain ⟨m, hm, hp⟩ := hp
  obtain ⟨n, hn, hq⟩ := hq
  have hsame : m = n := by
    have hboth := (hm []).symm.trans (hn [])
    simpa [bare] using hboth
  rw [← hp, ← hq, hsame]

theorem Strays.append (hs : Strays p s) (ht : Strays q t) : Strays (p ∨ q) (s ++ t) := by
  obtain ⟨m, hm, hp⟩ := hs
  obtain ⟨n, hn, hq⟩ := ht
  refine ⟨m ++ n, fun rest => ?_, ?_⟩
  · rw [List.append_assoc, hm, hn, List.append_assoc]
  · simp only [List.mem_append, or_and_right, exists_or, hp, hq]

private theorem bare_outside_of_not_quote (h : '"' ∉ s) (t : List Char) :
    bare .outside (s ++ t) = s ++ bare .outside t := by
  induction s with
  | nil => rfl
  | cons c s ih =>
    obtain ⟨hc, hs⟩ := not_or.mp (mt List.mem_cons.mpr h)
    have hnext : Place.next .outside c = .outside := if_neg (Ne.symm hc)
    rw [List.cons_append, bare, hnext, ih hs, List.cons_append]

private theorem strays_of_not_quote (h : '"' ∉ s) : Strays (∃ c ∈ s, BeginsWord c) s :=
  ⟨s, bare_outside_of_not_quote h, Iff.rfl⟩

private theorem strays_false {s : List Char} (h : ∀ c ∈ s, c ≠ '"' ∧ ¬ BeginsWord c) :
    Strays False s := by
  refine (strays_of_not_quote fun hquote => (h _ hquote).1 rfl).congr ?_
  rw [iff_false]
  rintro ⟨c, hc, hword⟩
  exact (h c hc).2 hword

private theorem strays_of_all (h : (s.all fun c => c ≠ '"' ∧ ¬ BeginsWord c) = true) :
    Strays False s :=
  strays_false fun c hc => of_decide_eq_true (List.all_eq_true.mp h c hc)

private theorem Strays.append_false (hs : Strays False s) (ht : Strays False t) :
    Strays False (s ++ t) :=
  (hs.append ht).congr (or_self_iff)

private theorem Strays.cons_false {c : Char} (hs : Strays False s) (hc : c ≠ '"' ∧ ¬ BeginsWord c) :
    Strays False (c :: s) :=
  (strays_false (List.forall_mem_singleton.mpr hc)).append_false hs

private theorem bare_inside_cons {c : Char} (hquote : c ≠ '"') (hmark : c ≠ '\\') (t : List Char) :
    bare .inside (c :: t) = bare .inside t := by
  rw [bare, Place.next, if_neg hquote, if_neg hmark]
  nofun

private theorem bare_inside_hex {hex : List Char} (h : ∀ c ∈ hex, IsHex c) (t : List Char) :
    bare .inside (hex ++ t) = bare .inside t := by
  have hplain : ∀ c, IsHex c → c ≠ '"' ∧ c ≠ '\\' := by
    intro c hc
    constructor <;> rintro rfl <;> revert hc <;> unfold IsHex <;> decide
  induction hex with
  | nil => rfl
  | cons c hex ih =>
    obtain ⟨hc, hrest⟩ := List.forall_mem_cons.mp h
    rw [List.cons_append, bare_inside_cons (hplain c hc).1 (hplain c hc).2, ih hrest]

private theorem bare_inside {b : List Char} (h : IsBody b) (t : List Char) :
    bare .inside (b ++ t) = bare .inside t := by
  have hescaped : ∀ (c : Char) (s : List Char), bare .inside ('\\' :: c :: s) = bare .inside s :=
    fun _ _ => rfl
  induction h with
  | nil => rfl
  | plain _ hquote hmark _ ih => rw [List.cons_append, bare_inside_cons hquote hmark, ih]
  | escape _ _ ih => rw [List.cons_append, List.cons_append, hescaped, ih]
  | unit _ hall _ ih =>
    rw [List.append_assoc, List.cons_append, List.cons_append, hescaped, bare_inside_hex hall, ih]

private theorem strays_of_isString (h : IsString s) : Strays False s := by
  obtain ⟨hbody⟩ := h
  refine ⟨['"'], fun t => ?_, by simp [BeginsWord]⟩
  rw [List.cons_append, List.cons_append, List.append_assoc]
  exact congrArg ('"' :: ·) (bare_inside hbody ('"' :: t))

/-! ## Texts of the grammar have no such words -/

private theorem strays_of_isSpace (h : IsSpace s) : Strays False s := by
  refine strays_false fun c hc => ?_
  rcases h c hc with rfl | rfl | rfl | rfl <;> simp [BeginsWord]

private theorem strays_of_areDigits (h : AreDigits s) : Strays False s := by
  refine strays_false fun c hc => ⟨?_, ?_⟩
  · rintro rfl
    exact absurd (h _ hc) (by decide)
  · rintro (rfl | rfl) <;> exact absurd (h _ hc) (by decide)

private theorem strays_of_isNumber (h : IsNumber s) : Strays False s := by
  have hnone : Strays False [] := strays_of_all rfl
  have hplus : Strays False ['+'] := strays_of_all rfl
  have hminus : Strays False ['-'] := strays_of_all rfl
  obtain ⟨hsign, hwhole, hfraction, hexponent⟩ := h
  refine Strays.append_false (Strays.append_false (Strays.append_false ?_ ?_) ?_) ?_
  · rcases List.mem_pair.mp hsign with rfl | rfl
    · exact hnone
    · exact hminus
  · cases hwhole with
    | zero => exact strays_of_all rfl
    | digits hc _ hrest => exact strays_of_areDigits (List.forall_mem_cons.mpr ⟨hc, hrest⟩)
  · cases hfraction with
    | none => exact hnone
    | some _ hdigits => exact (strays_of_areDigits hdigits).cons_false (by decide)
  · cases hexponent with
    | none => exact hnone
    | some hmark hsign _ hdigits =>
      refine Strays.append_false (Strays.cons_false ?_ ?_) (strays_of_areDigits hdigits)
      · simp only [List.mem_cons, List.not_mem_nil, or_false] at hsign
        rcases hsign with rfl | rfl | rfl
        · exact hnone
        · exact hplus
        · exact hminus
      · rcases List.mem_pair.mp hmark with rfl | rfl <;> decide

private theorem strays_of_word (h : s ∈ ["null".toList, "true".toList, "false".toList]) :
    Strays False s := by
  simp only [List.mem_cons, List.not_mem_nil, or_false] at h
  rcases h with rfl | rfl | rfl <;> exact strays_of_all rfl

mutual

private theorem strays_of_isValue {s : List Char} : IsValue s → Strays False s
  | .word h => strays_of_word h
  | .number h => strays_of_isNumber h
  | .string h => strays_of_isString h
  | .emptyList hw =>
    ((strays_of_isSpace hw).cons_false (by decide)).append_false (strays_of_all rfl)
  | .list hw hs hw' =>
    ((((strays_of_isSpace hw).cons_false (by decide)).append_false
      (strays_of_isItems hs)).append_false (strays_of_isSpace hw')).append_false
      (strays_of_all rfl)
  | .emptyObject hw =>
    ((strays_of_isSpace hw).cons_false (by decide)).append_false (strays_of_all rfl)
  | .object hw hs hw' =>
    ((((strays_of_isSpace hw).cons_false (by decide)).append_false
      (strays_of_isEntries hs)).append_false (strays_of_isSpace hw')).append_false
      (strays_of_all rfl)

private theorem strays_of_isItems {s : List Char} : IsItems s → Strays False s
  | .last hs => strays_of_isValue hs
  | .cons hs hw hw' ht =>
    (((strays_of_isValue hs).append_false (strays_of_isSpace hw)).append_false
      ((strays_of_isSpace hw').cons_false (by decide))).append_false (strays_of_isItems ht)

private theorem strays_of_isEntries {s : List Char} : IsEntries s → Strays False s
  | .last hk hw hw' hs =>
    (((strays_of_isString hk).append_false (strays_of_isSpace hw)).append_false
      ((strays_of_isSpace hw').cons_false (by decide))).append_false (strays_of_isValue hs)
  | .cons hk hw hw' hs hv hv' ht =>
    ((((((strays_of_isString hk).append_false (strays_of_isSpace hw)).append_false
      ((strays_of_isSpace hw').cons_false (by decide))).append_false
      (strays_of_isValue hs)).append_false (strays_of_isSpace hv)).append_false
      ((strays_of_isSpace hv').cons_false (by decide))).append_false (strays_of_isEntries ht)

end

private theorem strays_of_isText (h : IsText s) : Strays False s := by
  obtain ⟨hw, hs, hw'⟩ := h
  exact ((strays_of_isSpace hw).append_false (strays_of_isValue hs)).append_false
    (strays_of_isSpace hw')

/-! ## Values that are not strict have such words -/

private theorem strays_number (x : Binary64) : Strays (¬ IsStrict (.float x)) (number x) := by
  rw [isStrict_float_iff]
  cases x with
  | nan =>
    refine (strays_of_not_quote (by decide)).congr (iff_of_true ?_ nofun)
    exact ⟨'N', .head _, .inl rfl⟩
  | infinite negative =>
    cases negative with
    | false =>
      refine (strays_of_not_quote (by decide)).congr (iff_of_true ?_ nofun)
      exact ⟨'I', .head _, .inr rfl⟩
    | true =>
      refine (strays_of_not_quote (by decide)).congr (iff_of_true ?_ nofun)
      exact ⟨'I', .tail _ (.head _), .inr rfl⟩
  | finite s m e =>
    refine (strays_of_isNumber (isNumber_text s m e)).congr ?_
    simp [Binary64.isFinite]

private theorem strays_lineBreak (layout : Layout) : Strays False layout.lineBreak :=
  strays_of_isSpace (isSpace_lineBreak layout)

private theorem strays_between (layout : Layout) : Strays False layout.between := by
  obtain ⟨w, hw, hspace⟩ := exists_between layout
  rw [hw]
  exact (strays_of_isSpace hspace).cons_false (by decide)

private theorem strays_container {α : Type} (layout : Layout) {opening closing : Char}
    (hopening : opening ≠ '"' ∧ ¬ BeginsWord opening)
    (hclosing : closing ≠ '"' ∧ ¬ BeginsWord closing) {f : α → Prop} {part : α → List Char}
    {as : List α} (h : ∀ a ∈ as, Strays (f a) (part a)) :
    Strays (∃ a ∈ as, f a) (container layout opening closing (as.map part)) := by
  have hend : Strays False [closing] := strays_false (List.forall_mem_singleton.mpr hclosing)
  have hparts : Strays (∃ a ∈ as, f a)
      ((as.map part).intersperse layout.inner.between).flatten := by
    induction as with
    | nil => exact (strays_false (List.forall_mem_nil _)).congr (by simp)
    | cons a as ih =>
      obtain ⟨ha, has⟩ := List.forall_mem_cons.mp h
      cases as with
      | nil => simpa using ha
      | cons b as =>
        have hall := ha.append ((strays_between layout.inner).append (ih has))
        refine Eq.subst (motive := Strays _) ?_ (hall.congr ?_)
        · simp
        · simp
  cases as with
  | nil => exact (hend.cons_false hopening).congr (by simp)
  | cons a as =>
    have hall := (((((strays_lineBreak layout.inner).cons_false hopening).append hparts).append
      (strays_lineBreak layout)).append hend)
    exact hall.congr (by simp only [false_or, or_false])

private theorem strays_chars {sort : Binary64 → Prop} {v : Value} (h : IsJson sort v)
    (layout : Layout) :
    Strays (¬ IsStrict v) (chars layout v) := by
  have hstrict : ∀ {v : Value} (layout : Layout), IsStrict v →
      Strays (¬ IsStrict v) (chars layout v) := by
    intro v layout hv
    exact (strays_of_isValue (isValue_chars hv layout)).congr (by simpa using hv)
  induction h generalizing layout with
  | null => exact hstrict layout .null
  | bool b => exact hstrict layout (.bool b)
  | int i => exact hstrict layout (.int i)
  | @float x _ => exact strays_number x
  | text s => exact hstrict layout (.text s)
  | @list vs _ ih =>
    rw [chars, items_eq]
    have hitem : ∀ v ∈ vs, Strays (¬ IsStrict v) (chars layout.inner v) :=
      fun v hv => ih v hv layout.inner
    refine (strays_container layout (by decide) (by decide) hitem).congr ?_
    rw [isStrict_list_iff]
    simp only [not_forall, exists_prop]
  | @object es hkeys _ ih =>
    have hcolon : Strays False [':', ' '] := strays_of_all rfl
    have hentry : ∀ e ∈ es, Strays (¬ IsStrict e.2)
        (string e.1.toList ++ ':' :: ' ' :: chars layout.inner e.2) := by
      intro e he
      have hname := (strays_of_isString (isString_string e.1.toList)).append
        (hcolon.append (ih e he layout.inner))
      exact hname.congr (by simp only [false_or])
    rw [chars, entries_eq]
    refine (strays_container layout (by decide) (by decide) hentry).congr ?_
    rw [isStrict_object_iff hkeys]
    simp only [not_forall, exists_prop]

theorem isText_chars_iff {sort : Binary64 → Prop} {v : Value} (h : IsJson sort v)
    (layout : Layout) : IsText (chars layout v) ↔ IsStrict v := by
  constructor
  · intro htext
    have hsame := (strays_of_isText htext).unique (strays_chars h layout)
    exact not_not.mp hsame.mpr
  · intro hv
    have hnone : IsSpace [] := List.forall_mem_nil _
    simpa using IsText.mk hnone (isValue_chars hv layout) hnone

end QueryGateway.Proofs.Value.Strict
