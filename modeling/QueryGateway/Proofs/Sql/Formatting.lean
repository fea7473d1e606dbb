import QueryGateway.Log.Template
import QueryGateway.Proofs.Sql.Directives
import QueryGateway.Proofs.Success

/-!
Formatting undoes the writing of percent directives. A text that was written for a driver with such
directives is, formatted with as many arguments as it has parameter marks, the text that it was
written from with the arguments in the place of the marks; with fewer or more it is not formatted.
-/

set_option autoImplicit false
set_option relaxedAutoImplicit false

namespace QueryGateway.Proofs.Sql.Formatting

open QueryGateway.Log
open QueryGateway.Sql.Placeholder
open QueryGateway.Proofs.Sql.Directives
open QueryGateway.Proofs.Sql.Marks
open QueryGateway.Proofs.Success

/-! ## Parts of a written text -/

/-- The directive for an argument as text, without a key, flags or a size. -/
def wholeArgument : Template.Directive := { conversion := some 's' }

def pieceOf : Directive → Template.Piece
  | .char c => .character c
  | .argument => .directive wholeArgument

private theorem pieces_escaped (fuel : Nat) (r : List Char) :
    Template.pieces (fuel + 1) ('%' :: '%' :: r) = .character '%' :: Template.pieces fuel r := rfl

private theorem pieces_argument (fuel : Nat) (r : List Char) :
    Template.pieces (fuel + 1) ('%' :: 's' :: r) =
      .directive wholeArgument :: Template.pieces fuel r := rfl

private theorem pieces_character {c : Char} (hc : c ≠ '%') (fuel : Nat) (r : List Char) :
    Template.pieces (fuel + 1) (c :: r) = .character c :: Template.pieces fuel r := by
  rw [Template.pieces.eq_def]
  split <;> simp_all

private theorem pieces_percentFrom (places : List Nat) (start : Nat) (s : List Char) {fuel : Nat}
    (hfuel : (percentFrom places start s).length ≤ fuel) :
    Template.pieces fuel (percentFrom places start s) =
      (withArguments places start s).map pieceOf := by
  induction s generalizing start fuel with
  | nil => cases fuel <;> rfl
  | cons c r ih =>
    rw [percentFrom, List.length_append] at hfuel
    have hone : 1 ≤ (if places.contains start then ['%', 's']
        else if c = '%' then ['%', '%'] else [c]).length := by
      split_ifs <;> simp
    obtain ⟨rest, rfl⟩ : ∃ rest, fuel = rest + 1 := ⟨fuel - 1, by omega⟩
    have hrest : (percentFrom places (start + 1) r).length ≤ rest := by omega
    rw [percentFrom, withArguments, List.map_cons, ← ih (start + 1) hrest]
    split
    · exact pieces_argument rest _
    · split
      · rename_i hc
        rw [hc]
        exact pieces_escaped rest _
      · rename_i hc
        exact pieces_character hc rest _

/-! ## Filling in -/

def filled : List Directive → List String → List Char
  | [], _ => []
  | .char c :: ds, texts => c :: filled ds texts
  | .argument :: ds, texts => (texts.headD "").toList ++ filled ds texts.tail

private theorem convert_text (t : String) :
    Template.convert [] 's' none (.text t) = .ok { text := t.toList } := by
  have htext : Template.textOf (Value.Display.text? (.text t)) =
      .ok (String.ofList t.toList).toList := rfl
  rw [String.ofList_toList] at htext
  rw [Template.convert, htext]
  rfl

private theorem fill_wholeArgument (t : String) (values : List Value) :
    Template.fill none wholeArgument (.text t :: values) = .ok (t.toList, values) := by
  have hwide : Template.widen [] 0 { text := t.toList } = t.toList := by
    simp [Template.widen]
  have hfill : Template.fill none wholeArgument (.text t :: values) =
      (Template.convert [] 's' none (.text t)).bind fun body =>
        .ok (Template.widen [] 0 body, values) := rfl
  rw [hfill, convert_text, Except.bind, hwide]

private theorem fillAll_argument (ps : List Template.Piece) (t : String) (values : List Value) :
    Template.fillAll none (.directive wholeArgument :: ps) (.text t :: values) =
      (Template.fillAll none ps values).map fun p => (t.toList ++ p.1, p.2) := by
  rw [Template.fillAll, fill_wholeArgument]
  simp only [bind, Except.bind]
  cases Template.fillAll none ps values <;> rfl

private theorem fillAll_directives {ds : List Directive} {texts : List String}
    (h : ds.count .argument ≤ texts.length) :
    Template.fillAll none (ds.map pieceOf) (texts.map .text) =
      .ok (filled ds texts, (texts.drop (ds.count .argument)).map .text) := by
  induction ds generalizing texts with
  | nil => rfl
  | cons d ds ih =>
    cases d with
    | char c =>
      rw [List.count_cons_of_ne (by simp)] at h ⊢
      rw [List.map_cons, pieceOf, Template.fillAll, ih h]
      rfl
    | argument =>
      rw [List.count_cons_self] at h ⊢
      cases texts with
      | nil => simp at h
      | cons t texts =>
        have hrest : ds.count .argument ≤ texts.length := by simpa using h
        rw [List.map_cons, List.map_cons, pieceOf, fillAll_argument, ih hrest]
        rfl

private theorem fillAll_missing {ds : List Directive} {texts : List String}
    (h : texts.length < ds.count .argument) :
    Template.fillAll none (ds.map pieceOf) (texts.map .text) = .error .unsuitableArgument := by
  induction ds generalizing texts with
  | nil => simp at h
  | cons d ds ih =>
    cases d with
    | char c =>
      rw [List.count_cons_of_ne (by simp)] at h
      rw [List.map_cons, pieceOf, Template.fillAll, ih h]
      rfl
    | argument =>
      rw [List.count_cons_self] at h
      cases texts with
      | nil => rfl
      | cons t texts =>
        have hrest : texts.length < ds.count .argument := by simpa using h
        rw [List.map_cons, List.map_cons, pieceOf, fillAll_argument, ih hrest]
        rfl

/-! ## Texts in the place of marks -/

/-- A text with the k-th of some texts in the k-th of some places. -/
def replaced (places : List Nat) (texts : List String) (s : List Char) : List Char :=
  s.zipIdx.flatMap fun p =>
    if p.2 ∈ places then (texts.getD (places.idxOf p.2) "").toList else [p.1]

private theorem filled_withArguments {before after : List Nat} {start : Nat}
    (hbefore : ∀ n ∈ before, n < start) (hafter : ∀ n ∈ after, start ≤ n)
    (hsorted : after.Pairwise (· < ·)) (texts : List String) (s : List Char) :
    filled (withArguments (before ++ after) start s) (texts.drop before.length) =
      (s.zipIdx start).flatMap fun p =>
        if p.2 ∈ before ++ after then (texts.getD ((before ++ after).idxOf p.2) "").toList
        else [p.1] := by
  induction s generalizing before after start with
  | nil => rfl
  | cons c r ih =>
    rw [withArguments, List.zipIdx_cons, List.flatMap_cons]
    have hnew : start ∉ before := fun hmem => Nat.lt_irrefl _ (hbefore start hmem)
    have hpassed : ∀ n ∈ before, n < start + 1 := fun n hn => Nat.lt_succ_of_lt (hbefore n hn)
    by_cases hmem : start ∈ after
    · -- The places are in order and none in front is left, so this one is the next of them.
      obtain ⟨n, rest, rfl⟩ := List.exists_cons_of_ne_nil (List.ne_nil_of_mem hmem)
      obtain ⟨hnext, hrest⟩ := List.pairwise_cons.mp hsorted
      have hn : n = start := by
        rcases List.mem_cons.mp hmem with heq | hlater
        · exact heq.symm
        · have hle := hafter n List.mem_cons_self
          have hlt := hnext start hlater
          omega
      subst hn
      have hpassed' : ∀ m ∈ before ++ [n], m < n + 1 :=
        List.forall_mem_append.mpr ⟨hpassed, List.forall_mem_singleton.mpr (Nat.lt_succ_self n)⟩
      have hstep := ih hpassed' (fun m hm => hnext m hm) hrest
      rw [List.append_assoc, List.singleton_append, List.length_append, List.length_singleton]
        at hstep
      have hindex : (before ++ n :: rest).idxOf n = before.length := by
        rw [List.idxOf_append_of_notMem hnew, List.idxOf_cons_self, Nat.add_zero]
      have hplace : n ∈ before ++ n :: rest := by simp
      have hhead : (texts.drop before.length).headD "" = texts.getD before.length "" := by
        rw [List.headD_eq_head?_getD, List.head?_drop, List.getD_eq_getElem?_getD]
      rw [if_pos (List.contains_iff_mem.mpr hplace), filled, List.tail_drop, hstep, if_pos hplace,
        hindex, hhead]
    · have hlater : ∀ n ∈ after, start + 1 ≤ n := by
        intro n hn
        have hle := hafter n hn
        have hne : n ≠ start := by
          rintro rfl
          exact hmem hn
        omega
      have hplace : start ∉ before ++ after := by simp [hnew, hmem]
      rw [if_neg (by simpa using hplace), filled, ih hpassed hlater hsorted, if_neg hplace]
      rfl

private theorem filled_eq_replaced {places : List Nat} (hsorted : places.Pairwise (· < ·))
    (texts : List String) (s : List Char) :
    filled (withArguments places 0 s) texts = replaced places texts s := by
  have hbefore : ∀ n ∈ ([] : List Nat), n < 0 := nofun
  exact filled_withArguments hbefore (fun n _ => Nat.zero_le n) hsorted texts s

/-! ## Formatting -/

private theorem format_directives {sql : List Char} {ds : List Directive}
    (h : Template.pieces sql.length sql = ds.map pieceOf) (texts : List String) :
    Template.format (String.ofList sql) (.tuple (texts.map .text)) =
      if texts.length = ds.count .argument then .ok (String.ofList (filled ds texts))
      else .error .unsuitableArgument := by
  have hgiven : Template.Arguments.ofValue (.tuple (texts.map .text)) =
      ⟨none, texts.map .text⟩ := rfl
  simp only [Template.format, String.toList_ofList, hgiven, h]
  rcases Nat.lt_or_ge texts.length (ds.count .argument) with hfew | hmany
  · rw [fillAll_missing hfew, if_neg (Nat.ne_of_lt hfew)]
    rfl
  · rw [fillAll_directives hmany]
    split
    · rename_i hlength
      simp [← hlength, bind, Except.bind, pure, Except.pure]
    · rename_i hlength
      have hleft : ¬ texts.length ≤ ds.count .argument := by omega
      simp [hleft, bind, Except.bind, throw, throwThe, MonadExceptOf.throw]

/-- A text with parameter marks is written for the styles with percent directives such that
formatting meets characters and directives for an argument as text only, takes exactly one argument
for each mark, and gives the text with the k-th argument in the place of the k-th mark. -/
theorem format_render {name : String} (hname : name = "format" ∨ name = "pyformat")
    {s : List Char} {places : List Nat} (h : positions s = .ok places) :
    ∃ sql, render name s = .ok sql ∧
      (∀ p ∈ Template.pieces sql.length sql,
        (∃ c, p = .character c) ∨ p = .directive wholeArgument) ∧
      (∀ n ∈ places, s[n]? = some '?') ∧
      ∀ texts : List String,
        Template.format (String.ofList sql) (.tuple (texts.map .text)) =
          if texts.length = places.length then .ok (String.ofList (replaced places texts s))
          else .error .unsuitableArgument := by
  have hstyle : Style.ofName? name = some .percent := by
    rcases hname with rfl | rfl <;> rfl
  have hrender : render name s = .ok (percentFrom places 0 s) := by
    rw [render, hstyle]
    simp only [renderFor, h]
    rfl
  have hpieces := pieces_percentFrom places 0 s (Nat.le_refl _)
  have hmarks := mark_of_positions h
  have hcount : (withArguments places 0 s).count .argument = places.length :=
    count_withArguments_of_nodup (nodup_positions h) fun n hn =>
      (List.getElem?_eq_some_iff.mp (hmarks n hn)).1
  refine ⟨_, hrender, ?_, hmarks, fun texts => ?_⟩
  · intro p hp
    rw [hpieces] at hp
    obtain ⟨d, _, rfl⟩ := List.mem_map.mp hp
    cases d with
    | char c => exact .inl ⟨c, rfl⟩
    | argument => exact .inr rfl
  · rw [format_directives hpieces, hcount, filled_eq_replaced (sorted_positions h)]

/-- Percent signs in front of marks, a quoted question mark and what looks like a directive. -/
def crowded : List Char := "a LIKE '%?' AND b=%s?%%?".toList

private theorem positions_crowded : positions crowded = .ok [20, 23] := by
  have hok : (positions crowded).isOk = true := by decide +kernel
  have hplaces : (positions crowded).toOption.getD [] = [20, 23] := by decide +kernel
  rw [ok_getD hok [], hplaces]

theorem format_render_crowded :
    positions crowded = .ok [20, 23] ∧ ∃ sql, render "pyformat" crowded = .ok sql ∧
      Template.format (String.ofList sql) (.tuple [.text "1", .text "%s"]) =
        .ok "a LIKE '%?' AND b=%s1%%%s" := by
  obtain ⟨sql, hsql, _, _, hformat⟩ := format_render (.inr rfl) positions_crowded
  have hreplaced : String.ofList (replaced [20, 23] ["1", "%s"] crowded) =
      "a LIKE '%?' AND b=%s1%%%s" := by decide
  refine ⟨positions_crowded, sql, hsql, ?_⟩
  rw [← hreplaced]
  exact hformat ["1", "%s"]

end QueryGateway.Proofs.Sql.Formatting
