import QueryGateway.Proofs.Database.Calls
import QueryGateway.Proofs.Settings.Bounds
import QueryGateway.Proofs.Text.Blank
import QueryGateway.Proofs.Text.LetterCase
import QueryGateway.Proofs.Text.Split
import QueryGateway.Tool.Catalog
import QueryGateway.Tool.Dispatcher

/-!
The tools that the settings select, read in two ways: from the text of the setting, and from the
names that the settings make of it. Both trim the names and drop empty ones; they differ over the
word for every tool where it is not written in small letters.
-/

set_option autoImplicit false
set_option relaxedAutoImplicit false

namespace QueryGateway.Proofs.Tool.Selections

/-!
## Offers

The tools on offer. A dispatcher shows the tools that were selected, in the order of the catalog and
each of them once, and lets calls of just these tools through.
-/

section Offers

open QueryGateway.Database
open QueryGateway.Tool (Selection)
open QueryGateway.Proofs.Database.Calls (course)

theorem course_ofSelection (e : Engine) (selection : Selection) (s : Session) :
    course (Dispatcher.ofSelection e selection) s =
      (⟨e, selection.enabled⟩, match selection.warning? with
        | some message => s.logging
            { level := .warning, logger := Selection.logger, message := message }
        | none => s) := by
  unfold Dispatcher.ofSelection
  cases selection.warning? <;> rfl

theorem enabled_sublist (selection : Selection) : selection.enabled.Sublist Tool.order := by
  cases selection with
  | every => exact List.Sublist.refl _
  | named texts =>
    simp only [Selection.enabled]
    split
    · exact List.Sublist.refl _
    · exact List.filter_sublist

private theorem names_tools (d : Dispatcher) :
    d.tools.map Tool.name = d.enabled.map OperationKind.text := by
  rw [Dispatcher.tools, List.map_map]
  rfl

theorem isEnabled_iff (d : Dispatcher) (tool : String) :
    d.isEnabled tool = true ↔ tool ∈ d.tools.map Tool.name := by
  rw [names_tools, Dispatcher.isEnabled, List.any_eq_true, List.mem_map]
  simp

theorem nodup_catalog : (Tool.catalog.map Tool.name).Nodup := by
  decide +kernel

end Offers

open QueryGateway.Input
open QueryGateway.Settings
open QueryGateway.Text
open QueryGateway.Tool
open QueryGateway.Tool.Selection
open QueryGateway.Proofs.Settings.Bounds
open QueryGateway.Proofs.Text.Blank (trim_eq_self)
open QueryGateway.Proofs.Text.LetterCase
open QueryGateway.Proofs.Text.Split

/-- The selection that the names of the settings make: every tool where there are none to give. -/
def ofNames : Option (List String) → Selection
  | none => .every
  | some names => .named names

/-! ## Names in a text -/

private theorem namesIn_pieces (s : List Char) :
    namesIn ((Split.splitOn ',' s).map String.ofList) =
      (ServerSettings.toolNames (String.ofList s)).map String.ofList := by
  have hpieces : ∀ ps : List (List Char), (∀ p ∈ ps, ',' ∉ p) →
      namesIn (ps.map String.ofList) =
        ((ps.map Blank.trim).filter fun name => !name.isEmpty).map String.ofList := by
    intro ps hps
    induction ps with
    | nil => rfl
    | cons p ps ih =>
      obtain ⟨hp, hrest⟩ := List.forall_mem_cons.mp hps
      have hnames : ServerSettings.toolNames (String.ofList p) =
          [Blank.trim p].filter fun name => !name.isEmpty := by
        rw [ServerSettings.toolNames, String.toList_ofList, splitOn_of_not_mem hp]
        rfl
      rw [List.map_cons, namesIn, List.flatMap_cons, ← namesIn, ih hrest, hnames]
      simp only [List.map_cons, List.filter_cons, List.filter_nil]
      split <;> rfl
  rw [hpieces _ not_mem_of_mem_splitOn, ServerSettings.toolNames, String.toList_ofList]

/-! ## The word for every tool -/

def IsEveryWord (s : List Char) : Prop := LetterCase.lower s = everyWord.toList

theorem IsEveryWord.letters {s : List Char} (h : IsEveryWord s) :
    ∀ c ∈ s, c ∈ ['a', 'A', 'l', 'L'] := by
  have hown : ∀ d ∈ LetterCase.lower s, IsOwn d := by
    rw [h]
    exact fun d hd => of_decide_eq_true (List.all_eq_true (p := fun d => IsOwn d).mp rfl d hd)
  have hascii : ∀ n < 128, (Char.ofNat n).toLower ∈ everyWord.toList →
      Char.ofNat n ∈ ['a', 'A', 'l', 'L'] := by decide
  intro c hc
  obtain ⟨hlow, hmem⟩ := toLower_mem_of_lower hown c hc
  rw [h] at hmem
  have hletter := hascii c.toNat hlow
  rw [Char.ofNat_toNat] at hletter
  exact hletter hmem

private theorem IsEveryWord.toolNames_eq {s : String} (h : IsEveryWord s.toList) :
    ServerSettings.toolNames s = [s.toList] := by
  have hvisible : ∀ c ∈ ['a', 'A', 'l', 'L'], (!Blank.isBlank c) = true := List.all_eq_true.mp rfl
  have hcomma : ',' ∉ s.toList := fun hmem => absurd (h.letters _ hmem) (by decide)
  have htrim : Blank.trim s.toList = s.toList :=
    trim_eq_self fun c hc => by simpa using hvisible c (h.letters c hc)
  have hne : s.toList ≠ [] := by
    intro hnil
    rw [IsEveryWord, hnil] at h
    cases h
  rw [ServerSettings.toolNames, splitOn_of_not_mem hcomma, List.map_singleton, htrim]
  simp [hne]

private theorem exists_letter (k : OperationKind) :
    ∃ c ∈ k.text.toList, c ∉ ['a', 'A', 'l', 'L'] := by
  have hother : k.text.toList.any (fun c => !(['a', 'A', 'l', 'L'].contains c)) = true := by
    cases k <;> rfl
  obtain ⟨c, hc, hletter⟩ := List.any_eq_true.mp hother
  exact ⟨c, hc, by simpa using hletter⟩

/-! ## Both readings -/

variable {st : ServerSettings}

private theorem enabled_of_isEveryWord (h : IsEveryWord st.enabledTools.toList) :
    (ofNames st.enabledNames).enabled = order := by
  have hlower : (lower st.enabledTools == "all") = true := by
    rw [lower, h]
    rfl
  rw [ServerSettings.enabledNames, if_pos hlower]
  rfl

private theorem enabled_of_not_isEveryWord (h : ¬ IsEveryWord st.enabledTools.toList) :
    (ofNames st.enabledNames).enabled = (Selection.ofText st.enabledTools).enabled := by
  have hlower : ¬ (lower st.enabledTools == "all") = true := by
    intro heq
    refine h ?_
    rw [IsEveryWord, ← String.toList_ofList (l := LetterCase.lower _)]
    exact congrArg String.toList (beq_iff_eq.mp heq)
  have hnames : namesIn ((Split.splitOn ',' st.enabledTools.toList).map String.ofList) =
      namesIn [st.enabledTools] := by
    rw [namesIn_pieces, String.ofList_toList, namesIn, List.flatMap_singleton]
  rw [ServerSettings.enabledNames, if_neg hlower, ofNames, enabled, Selection.ofText, enabled,
    hnames]

private theorem enabled_ofText_of_isEveryWord (h : IsEveryWord st.enabledTools.toList) :
    (Selection.ofText st.enabledTools).enabled =
      if st.enabledTools = everyWord then order else [] := by
  have hnames : namesIn [st.enabledTools] = [st.enabledTools] := by
    rw [namesIn, List.flatMap_singleton, h.toolNames_eq, List.map_singleton, String.ofList_toList]
  rw [Selection.ofText, enabled, hnames]
  by_cases heq : st.enabledTools = everyWord
  · simp [heq]
  · have hnone : ∀ k ∈ order, k.text ≠ st.enabledTools := by
      intro k _ htext
      obtain ⟨c, hc, hletter⟩ := exists_letter k
      exact hletter (h.letters c (htext ▸ hc))
    simpa [Ne.symm heq, heq] using hnone

private theorem enabled_eq_iff :
    (Selection.ofText st.enabledTools).enabled = (ofNames st.enabledNames).enabled ↔
      (IsEveryWord st.enabledTools.toList → st.enabledTools = everyWord) := by
  by_cases h : IsEveryWord st.enabledTools.toList
  · rw [enabled_of_isEveryWord h, enabled_ofText_of_isEveryWord h]
    have hne : [] ≠ order := by decide
    simp [h, hne]
  · rw [enabled_of_not_isEveryWord h]
    simp [h]

/-! ## The setting as it was given -/

private theorem enabledTools_of_ofValues {s : String} {environment : Environment}
    (h : ServerSettings.ofValues [("enabled_tools", .text s)] environment = .good st) :
    (ServerSettings.tools (.text s)).value? = some st.enabledTools := by
  have hread :
      (ServerSettings.ofValues [("enabled_tools", .text s)] environment).value? = some st :=
    congrArg Checked.value? h
  simp only [ServerSettings.ofValues, ServerSettings.ofSource, value?_seq, value?_map] at hread
  obtain ⟨_, ⟨_, ⟨_, ⟨_, _, rfl⟩, tools, htools, rfl⟩, _, _, rfl⟩, _, _, rfl⟩ := hread
  have hname : (lower "enabled_tools" == "enabled_tools") = true := by decide
  simpa [Source.setting, Source.get?, Source.explicit?, hname, value?_within] using htools

private theorem isEveryWord_enabledTools_iff {s : String}
    (h : (ServerSettings.tools (.text s)).value? = some st.enabledTools) :
    (IsEveryWord st.enabledTools.toList → st.enabledTools = everyWord) ↔
      ∀ name, ServerSettings.toolNames s = [name] → IsEveryWord name →
        String.ofList name = everyWord := by
  obtain ⟨_, hs, h⟩ := value?_andThen.mp h
  cases hs
  dsimp only at h
  split at h
  · rename_i hnone
    have htools : st.enabledTools = everyWord := (Option.some.inj h).symm
    rw [List.isEmpty_iff.mp hnone]
    exact iff_of_true (fun _ => htools) nofun
  · rename_i hsome
    have htools : st.enabledTools =
      String.ofList (Split.joinWith [','] (ServerSettings.toolNames s)) := (Option.some.inj h).symm
    rw [htools, String.toList_ofList]
    match hnames : ServerSettings.toolNames s with
    | [] => exact absurd (List.isEmpty_iff.mpr hnames) hsome
    | [name] =>
      have hjoin : Split.joinWith [','] [name] = name := rfl
      simp [hjoin]
    | name :: other :: names =>
      refine iff_of_true (fun hword => ?_) nofun
      have hcomma : ',' ∈ Split.joinWith [','] (name :: other :: names) := by
        rw [joinWith_cons name (List.cons_ne_nil other names)]
        exact List.mem_append_right name List.mem_cons_self
      exact absurd (hword.letters ',' hcomma) (by decide)

/-- Both readings of an accepted setting select the same tools just if it is not the word for every
tool, alone between white space and commas, in other letters than small ones. -/
theorem enabled_alike_iff {s : String} {environment : Environment}
    (h : ServerSettings.ofValues [("enabled_tools", .text s)] environment = .good st) :
    (Selection.ofText st.enabledTools).enabled = (ofNames st.enabledNames).enabled ↔
      ∀ name, ServerSettings.toolNames s = [name] → IsEveryWord name →
        String.ofList name = everyWord := by
  rw [enabled_eq_iff]
  exact isEveryWord_enabledTools_iff (enabledTools_of_ofValues h)

def mixed : String := " read, ,list,ALL,read "

theorem enabled_alike_iff_mixed :
    ∃ st, ServerSettings.ofValues [("enabled_tools", .text mixed)] [] = .good st ∧
      st.enabledNames = some ["read", "list", "ALL", "read"] ∧
      (Selection.ofText st.enabledTools).enabled = (ofNames st.enabledNames).enabled := by
  have hgood : ServerSettings.ofValues [("enabled_tools", .text mixed)] [] =
      .good ⟨"sqlgate", "read,list,ALL,read", "INFO", none⟩ := by rfl
  refine ⟨_, hgood, by decide, (enabled_alike_iff hgood).mpr fun name hnames => ?_⟩
  have hlength : (ServerSettings.toolNames mixed).length = 4 := by decide
  rw [hnames] at hlength
  cases hlength

/-- The word for every tool in capitals: its text selects no tool, its names select all. -/
theorem not_enabled_alike_capitals :
    ∃ st, ServerSettings.ofValues [("enabled_tools", .text "ALL")] [] = .good st ∧
      (Selection.ofText st.enabledTools).enabled = [] ∧
      (ofNames st.enabledNames).enabled = order ∧ order ≠ [] :=
  ⟨⟨"sqlgate", "ALL", "INFO", none⟩, by rfl, by decide, by decide, by decide⟩

end QueryGateway.Proofs.Tool.Selections
