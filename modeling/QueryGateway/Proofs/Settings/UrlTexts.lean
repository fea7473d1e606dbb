import QueryGateway.Proofs.Settings.Urls
import QueryGateway.Proofs.Text.LetterCase

/-!
Texts of URLs in their parts. A text that has a scheme and an authority is taken apart there and
nowhere else, and the URL that it denotes is read back from the text that is written for it.
-/

set_option autoImplicit false
set_option relaxedAutoImplicit false

namespace QueryGateway.Proofs.Settings.UrlTexts

open QueryGateway.Settings
open QueryGateway.Settings.Url
open QueryGateway.Text
open QueryGateway.Proofs.Settings.Urls
open QueryGateway.Proofs.Text.LetterCase
open QueryGateway.Proofs.Text.Runs (dropWhile_parted takeWhile_parted)
open QueryGateway.Proofs.Text.Split

variable {s scheme authority rest host : List Char} {u : Url}

/-! ## Parts in front of a separator -/

section Cuts

variable {sep : Char} {a b : List Char}

theorem cutAt_append (h : sep ∉ a) : cutAt sep (a ++ sep :: b) = (a, b) := by
  rw [cutAt, cutFirst?_append h]
  rfl

theorem cutAt_of_not_mem (h : sep ∉ s) : cutAt sep s = (s, []) := by
  rw [cutAt, cutFirst?_eq_none_iff.mpr h]
  rfl

private theorem cutAt_cases (sep : Char) (s : List Char) :
    sep ∉ (cutAt sep s).1 ∧
      (s = (cutAt sep s).1 ∧ (cutAt sep s).2 = [] ∨
        s = (cutAt sep s).1 ++ sep :: (cutAt sep s).2) := by
  by_cases h : sep ∈ s
  · obtain ⟨a, b, rfl, ha⟩ := List.eq_append_cons_of_mem h
    rw [cutAt_append ha]
    exact ⟨ha, .inr rfl⟩
  · rw [cutAt_of_not_mem h]
    exact ⟨h, .inl ⟨rfl, rfl⟩⟩

private theorem mem_of_mem_cutAt {c : Char} (h : c ∈ (cutAt sep s).1 ∨ c ∈ (cutAt sep s).2) :
    c ∈ s := by
  rcases (cutAt_cases sep s).2 with ⟨hfront, hbehind⟩ | hboth
  · rw [hbehind] at h
    rw [hfront]
    exact h.resolve_right List.not_mem_nil
  · rw [hboth, List.mem_append, List.mem_cons]
    exact h.imp id .inr

end Cuts

/-! ## Schemes -/

/-- A scheme of a URL: a letter, and then letters, digits, plus signs, hyphens and points. -/
structure IsScheme (scheme : List Char) : Prop where
  head : scheme.head?.any Char.isAlpha = true
  chars : ∀ c ∈ scheme, isSchemeChar c = true

private theorem toNat_lt_of_isSchemeChar {c : Char} (h : isSchemeChar c = true) :
    c.toNat < 128 := by
  simp only [isSchemeChar, Bool.or_eq_true, beq_iff_eq] at h
  rcases h with ((halphanum | rfl) | rfl) | rfl
  · exact toNat_lt_of_isAlphanum halphanum
  all_goals decide

/-- A character of a scheme is mistaken for nothing else, and its small form is another one. -/
structure IsSound (c : Char) : Prop where
  small : isSchemeChar c.toLower = true
  again : c.toLower.toLower = c.toLower
  counts : isLeadingJunk c = false ∧ isDropped c = false
  colon : c ≠ ':'

private theorem isSound_of_isSchemeChar {c : Char} (h : isSchemeChar c = true) : IsSound c := by
  have htable := of_ascii (p := fun c => isSchemeChar c = true →
    isSchemeChar c.toLower = true ∧ c.toLower.toLower = c.toLower ∧
      (isLeadingJunk c = false ∧ isDropped c = false) ∧ c ≠ ':')
    (by decide +kernel) (toNat_lt_of_isSchemeChar h)
  obtain ⟨hsmall, hagain, hcounts, hcolon⟩ := htable h
  exact ⟨hsmall, hagain, hcounts, hcolon⟩

theorem IsScheme.isSound (h : IsScheme scheme) : ∀ c ∈ scheme, IsSound c :=
  fun c hc => isSound_of_isSchemeChar (h.chars c hc)

theorem IsScheme.ne_nil (h : IsScheme scheme) : scheme ≠ [] := by
  rintro rfl
  cases h.head

private theorem takeScheme_append (h : IsScheme scheme) (rest : List Char) :
    takeScheme (scheme ++ ':' :: rest) = (scheme.map Char.toLower, rest) := by
  have hcolon : ':' ∉ scheme := fun hmem => (h.isSound _ hmem).colon rfl
  have hsound : (scheme.head?.any Char.isAlpha && scheme.all isSchemeChar) = true := by
    rw [h.head, List.all_eq_true.mpr h.chars]
    rfl
  rw [takeScheme, cutFirst?_append hcolon]
  exact if_pos hsound

private theorem isAlpha_toLower {c : Char} (h : c.isAlpha = true) : c.toLower.isAlpha = true := by
  have hascii : c.toNat < 128 :=
    toNat_lt_of_isAlphanum (Bool.or_eq_true_iff.mpr (.inl h))
  have htable := of_ascii (p := fun c => c.isAlpha = true → c.toLower.isAlpha = true)
    (by decide +kernel) hascii
  exact htable h

theorem IsScheme.small (h : IsScheme scheme) : IsScheme (scheme.map Char.toLower) ∧
    (scheme.map Char.toLower).map Char.toLower = scheme.map Char.toLower := by
  refine ⟨⟨?_, ?_⟩, ?_⟩
  · have hhead := h.head
    cases scheme with
    | nil => cases hhead
    | cons c scheme => exact isAlpha_toLower hhead
  · intro d hd
    obtain ⟨c, hc, rfl⟩ := List.mem_map.mp hd
    exact (h.isSound c hc).small
  · rw [List.map_map]
    exact List.map_congr_left fun c hc => (h.isSound c hc).again

/-! ## Texts with a scheme and an authority -/

theorem cleaned_of_scheme (h : IsScheme scheme) (rest : List Char) :
    cleaned (scheme ++ rest) = scheme ++ counted rest := by
  have hstart : ∀ d ∈ (scheme ++ rest).head?, isLeadingJunk d = false := by
    intro d hd
    have hmem : d ∈ scheme := by
      cases scheme with
      | nil => exact absurd rfl h.ne_nil
      | cons c scheme =>
        cases hd
        exact List.mem_cons_self
    exact (h.isSound d hmem).counts.1
  have hcounts : counted scheme = scheme :=
    counted_eq_self fun c hc => (h.isSound c hc).counts.2
  have hall := cleaned_append (s := []) hstart
  rw [List.nil_append, counted_append, hcounts] at hall
  exact hall

/-- What comes behind an authority: nothing, or a path, a query or a fragment. -/
def ComesBehind (rest : List Char) : Prop := ∀ c ∈ rest.head?, endsAuthority c = true

theorem ComesBehind.append {a b : List Char} (ha : ComesBehind a) (hb : ComesBehind b) :
    ComesBehind (a ++ b) := by
  cases a with
  | nil => exact hb
  | cons c a => exact ha

private theorem takeAuthority_append (hauthority : ∀ c ∈ authority, endsAuthority c = false)
    (hrest : ComesBehind rest) :
    takeAuthority ('/' :: '/' :: (authority ++ rest)) = (authority, rest) := by
  have hinside : ∀ c ∈ authority, (!endsAuthority c) = true := by simpa using hauthority
  have hend : ∀ c ∈ rest.head?, (!endsAuthority c) = false := by simpa [ComesBehind] using hrest
  rw [takeAuthority, takeWhile_parted hinside hend, dropWhile_parted hinside hend]

def ofParts (scheme authority rest : List Char) : Url where
  scheme := scheme.map Char.toLower
  authority := authority
  path := (cutAt '?' (cutAt '#' rest).1).1
  query := (cutAt '?' (cutAt '#' rest).1).2
  fragment := (cutAt '#' rest).2

def isAccepted (authority : List Char) : Bool :=
  hasSoundBrackets authority && !authority.any fun c => ambiguous.contains c.toNat

theorem ofText?_of_parts (hscheme : IsScheme scheme)
    (hauthority : ∀ c ∈ authority, endsAuthority c = false) (hrest : ComesBehind rest)
    (hs : cleaned s = scheme ++ ("://".toList ++ (authority ++ rest))) :
    ofText? s = if isAccepted authority then some (ofParts scheme authority rest) else none := by
  have htaken : takeScheme (cleaned s) =
      (scheme.map Char.toLower, '/' :: '/' :: (authority ++ rest)) := by
    rw [hs]
    exact takeScheme_append hscheme _
  simp only [ofText?, htaken, takeAuthority_append hauthority hrest]
  rfl

/-! ## Texts that are read back -/

/-- A URL that its text tells in full. -/
structure IsWhole (u : Url) : Prop where
  scheme : IsScheme u.scheme
  small : u.scheme.map Char.toLower = u.scheme
  authority : ∀ c ∈ u.authority, endsAuthority c = false
  accepted : isAccepted u.authority = true
  path : ∀ c ∈ u.path.head?, c = '/'
  beforeQuery : '?' ∉ u.path
  beforeFragment : '#' ∉ u.path ∧ '#' ∉ u.query
  counts : ∀ c ∈ u.authority ++ (u.path ++ (u.query ++ u.fragment)), isDropped c = false

private theorem head?_cutAt {sep c : Char} (h : (cutAt sep s).1.head? = some c) :
    s.head? = some c := by
  rcases (cutAt_cases sep s).2 with ⟨hfront, _⟩ | hboth
  · rwa [hfront]
  · rw [hboth, List.head?_append, h]
    rfl

theorem isWhole_ofParts (hscheme : IsScheme scheme)
    (hauthority : ∀ c ∈ authority, endsAuthority c = false)
    (haccepted : isAccepted authority = true) (hrest : ComesBehind rest)
    (hcounts : ∀ c ∈ authority ++ rest, isDropped c = false) :
    IsWhole (ofParts scheme authority rest) := by
  have hpath := (cutAt_cases '?' (cutAt '#' rest).1).1
  have hfragment : ∀ c, c ∈ (ofParts scheme authority rest).path ∨
      c ∈ (ofParts scheme authority rest).query → c ≠ '#' := by
    rintro c hc rfl
    exact (cutAt_cases '#' rest).1 (mem_of_mem_cutAt hc)
  refine ⟨hscheme.small.1, hscheme.small.2, hauthority, haccepted, ?_, hpath,
    ⟨fun h => hfragment _ (.inl h) rfl, fun h => hfragment _ (.inr h) rfl⟩, ?_⟩
  · intro c hc
    have hfirst := hrest c (head?_cutAt (head?_cutAt hc))
    have hmem : c ∈ (ofParts scheme authority rest).path := List.mem_of_head? hc
    simp only [endsAuthority, Bool.or_eq_true, beq_iff_eq] at hfirst
    rcases hfirst with (hslash | rfl) | rfl
    · exact hslash
    · exact absurd hmem hpath
    · exact absurd rfl (hfragment _ (.inl hmem))
  · intro c hc
    refine hcounts c ?_
    rw [List.mem_append] at hc ⊢
    refine hc.imp id fun hbehind => ?_
    rcases List.mem_append.mp hbehind with h | h
    · exact mem_of_mem_cutAt (.inl (mem_of_mem_cutAt (.inl h)))
    · rcases List.mem_append.mp h with h | h
      · exact mem_of_mem_cutAt (.inl (mem_of_mem_cutAt (.inr h)))
      · exact mem_of_mem_cutAt (.inr h)

def marked (sep : Char) (part : List Char) : List Char := if part.isEmpty then [] else sep :: part

private theorem comesBehind_marked {sep : Char} (h : endsAuthority sep = true) (part : List Char) :
    ComesBehind (marked sep part) := by
  unfold marked
  split
  · nofun
  · rintro c ⟨⟩
    exact h

private theorem mem_marked {sep c : Char} {part : List Char} (h : c ∈ marked sep part) :
    c = sep ∨ c ∈ part := by
  unfold marked at h
  split at h
  · cases h
  · exact List.mem_cons.mp h

private theorem cutAt_marked {sep : Char} {a : List Char} (h : sep ∉ a) (part : List Char) :
    cutAt sep (a ++ marked sep part) = (a, part) := by
  cases part with
  | nil => exact (congrArg _ (List.append_nil a)).trans (cutAt_of_not_mem h)
  | cons c part => exact cutAt_append h

theorem ofText?_text (h : IsWhole u) : ofText? u.text = some u := by
  obtain ⟨rest, hrest⟩ : ∃ rest, rest = u.path ++ marked '?' u.query ++ marked '#' u.fragment :=
    ⟨_, rfl⟩
  have htext : u.text = u.scheme ++ ("://".toList ++ (u.authority ++ rest)) := by
    rw [text, if_neg (by simpa using h.scheme.ne_nil), hrest]
    simp [marked]
  have hbehind : ComesBehind rest := by
    have hpath : ComesBehind u.path := by
      intro c hc
      rw [h.path c hc]
      rfl
    rw [hrest]
    exact (hpath.append (comesBehind_marked rfl _)).append (comesBehind_marked rfl _)
  have hcounts : counted ("://".toList ++ (u.authority ++ rest)) =
      "://".toList ++ (u.authority ++ rest) := by
    refine counted_eq_self fun c hc => ?_
    have hslashes : ∀ c ∈ "://".toList, isDropped c = false := by simp [isDropped]
    have hparts := h.counts c
    simp only [hrest, List.mem_append] at hc hparts
    rcases hc with hc | hc | (hc | hc) | hc
    · exact hslashes c hc
    · exact hparts (.inl hc)
    · exact hparts (.inr (.inl hc))
    · rcases mem_marked hc with rfl | hc
      · rfl
      · exact hparts (.inr (.inr (.inl hc)))
    · rcases mem_marked hc with rfl | hc
      · rfl
      · exact hparts (.inr (.inr (.inr hc)))
  have hcleaned := cleaned_of_scheme h.scheme ("://".toList ++ (u.authority ++ rest))
  rw [hcounts] at hcleaned
  have hfront : '#' ∉ u.path ++ marked '?' u.query := by
    rw [List.mem_append]
    rintro (hpath | hquery)
    · exact h.beforeFragment.1 hpath
    · exact (mem_marked hquery).elim (absurd · (by decide)) h.beforeFragment.2
  rw [htext, ofText?_of_parts h.scheme h.authority hbehind hcleaned, if_pos h.accepted, ofParts,
    hrest, cutAt_marked hfront, cutAt_marked h.beforeQuery, h.small]

/-! ## Hosts -/

theorem hostText_append {info host : List Char} (h : '@' ∉ host) :
    hostText (info ++ '@' :: host) = hostText host := by
  simp only [hostText, cutLast?_append h, cutLast?_eq_none_iff.mpr h]

theorem isAccepted_append {info host : List Char} (h : '@' ∉ host)
    (hinfo : '[' ∉ info ∧ ']' ∉ info) :
    isAccepted (info ++ '@' :: host) =
      (isAccepted host && !info.any fun c => ambiguous.contains c.toNat) := by
  have hmark : ambiguous.contains '@'.toNat = false := by decide
  have hbrackets : hasSoundBrackets (info ++ '@' :: host) = hasSoundBrackets host := by
    simp only [hasSoundBrackets, hostText_append h]
    simp [hinfo.1, hinfo.2]
  rw [isAccepted, isAccepted, hbrackets, List.any_append, List.any_cons, hmark, Bool.false_or,
    Bool.not_or, Bool.and_assoc, Bool.and_comm (!info.any _)]

end QueryGateway.Proofs.Settings.UrlTexts
