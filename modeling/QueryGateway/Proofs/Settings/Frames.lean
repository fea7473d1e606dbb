import QueryGateway.Proofs.Settings.UrlTexts

/-!
URLs around a password. What stands in front of the password and behind it is fixed, and such a text
is taken apart into its user, its password and the rest, whatever the password is.
-/

set_option autoImplicit false
set_option relaxedAutoImplicit false

namespace QueryGateway.Proofs.Settings.Frames

open QueryGateway.Settings.Url
open QueryGateway.Proofs.Settings.Urls
open QueryGateway.Proofs.Settings.UrlTexts

/-- The text of a URL around its password: scheme, user, host with port, and what comes behind them,
which is the path, the query and the fragment. -/
structure Frame where
  scheme : List Char
  user : List Char
  host : List Char
  rest : List Char

def isSeparator (c : Char) : Bool := endsAuthority c || c == '[' || c == ']'

def IsRaw (password : List Char) : Prop := ∀ c ∈ password, isSeparator c = false

namespace Frame

def withPassword (w : Frame) (password : List Char) : List Char :=
  w.scheme ++ ("://".toList ++ (w.user ++ ':' :: (password ++ '@' :: (w.host ++ w.rest))))

/-- The parts stand where a URL has them. -/
structure WellFormed (w : Frame) : Prop where
  scheme : IsScheme w.scheme
  user : ':' ∉ w.user ∧ ∀ c ∈ w.user, isSeparator c = false
  host : '@' ∉ w.host ∧ ∀ c ∈ w.host, endsAuthority c = false
  rest : ComesBehind w.rest

def authority (w : Frame) (password : List Char) : List Char :=
  counted w.user ++ ':' :: (password ++ '@' :: counted w.host)

end Frame

variable {w : Frame} {p : List Char}

/-! ## Characters that count -/

private theorem counted_cons {c : Char} (h : isDropped c = false) (s : List Char) :
    counted (c :: s) = c :: counted s := by
  simp [counted, h]

theorem mem_of_mem_counted {c : Char} {s : List Char} (h : c ∈ counted s) : c ∈ s :=
  List.mem_of_mem_filter h

theorem comesBehind_counted {rest : List Char} (h : ComesBehind rest) :
    ComesBehind (counted rest) := by
  cases rest with
  | nil => nofun
  | cons c rest =>
    have hc := h c rfl
    have hkept : isDropped c = false := by
      simp only [endsAuthority, Bool.or_eq_true, beq_iff_eq] at hc
      rcases hc with (rfl | rfl) | rfl <;> rfl
    rw [counted_cons hkept]
    rintro d ⟨⟩
    exact hc

/-! ## The authority -/

private theorem Frame.authority_eq (w : Frame) (p : List Char) :
    w.authority p = (counted w.user ++ ':' :: p) ++ '@' :: counted w.host := by
  simp [Frame.authority]

theorem endsAuthority_of_isSeparator {c : Char} (h : isSeparator c = false) :
    endsAuthority c = false := by
  simp only [isSeparator, Bool.or_eq_false_iff] at h
  exact h.1.1

theorem Frame.WellFormed.colon_not_mem (hw : w.WellFormed) : ':' ∉ counted w.user :=
  fun h => hw.user.1 (mem_of_mem_counted h)

theorem Frame.WellFormed.sign_not_mem (hw : w.WellFormed) : '@' ∉ counted w.host :=
  fun h => hw.host.1 (mem_of_mem_counted h)

theorem IsRaw.counted (h : IsRaw p) : IsRaw (counted p) := fun c hc => h c (mem_of_mem_counted hc)

theorem not_endsAuthority (hw : w.WellFormed) (hp : IsRaw p) :
    ∀ c ∈ w.authority p, endsAuthority c = false := by
  intro c hc
  simp only [Frame.authority, List.mem_append, List.mem_cons] at hc
  rcases hc with huser | rfl | hpassword | rfl | hhost
  · exact endsAuthority_of_isSeparator (hw.user.2 c (mem_of_mem_counted huser))
  · rfl
  · exact endsAuthority_of_isSeparator (hp c hpassword)
  · rfl
  · exact hw.host.2 c (mem_of_mem_counted hhost)

theorem userInfo_ofParts (hw : w.WellFormed) (p rest : List Char) :
    (ofParts w.scheme (w.authority p) rest).userInfo = some (counted w.user, some p) :=
  userInfo_eq_some_iff.mpr ⟨counted w.host, rfl, hw.colon_not_mem, hw.sign_not_mem⟩

theorem password?_ofParts (hw : w.WellFormed) (p rest : List Char) :
    (ofParts w.scheme (w.authority p) rest).password? = some p := by
  rw [password?, userInfo_ofParts hw]
  rfl

private theorem brackets_not_mem (hw : w.WellFormed) (hp : IsRaw p) :
    '[' ∉ counted w.user ++ ':' :: p ∧ ']' ∉ counted w.user ++ ':' :: p := by
  have hinside : ∀ c ∈ counted w.user ++ ':' :: p, isSeparator c = false := by
    intro c hc
    rcases List.mem_append.mp hc with huser | hbehind
    · exact hw.user.2 c (mem_of_mem_counted huser)
    · rcases List.mem_cons.mp hbehind with rfl | hpassword
      · rfl
      · exact hp c hpassword
  exact ⟨fun h => absurd (hinside _ h) (by decide), fun h => absurd (hinside _ h) (by decide)⟩

theorem hostText_authority (hw : w.WellFormed) (p : List Char) :
    hostText (w.authority p) = hostText (counted w.host) := by
  rw [w.authority_eq, hostText_append hw.sign_not_mem]

theorem isAccepted_authority (hw : w.WellFormed) (hp : IsRaw p) :
    isAccepted (w.authority p) = (isAccepted (counted w.host) &&
      !(counted w.user ++ ':' :: p).any fun c => ambiguous.contains c.toNat) := by
  rw [w.authority_eq, isAccepted_append hw.sign_not_mem (brackets_not_mem hw hp)]

/-! ## The text -/

private theorem cleaned_withPassword (hw : w.WellFormed) (p : List Char) :
    cleaned (w.withPassword p) =
      w.scheme ++ ("://".toList ++ (w.authority (counted p) ++ counted w.rest)) := by
  have hslashes : counted "://".toList = "://".toList := by decide
  rw [Frame.withPassword, cleaned_of_scheme hw.scheme, counted_append, hslashes, counted_append,
    counted_cons rfl, counted_append, counted_cons rfl, counted_append, Frame.authority]
  simp

theorem ofText?_withPassword (hw : w.WellFormed) (hp : IsRaw p) :
    ofText? (w.withPassword p) =
      if isAccepted (w.authority (counted p)) then
        some (ofParts w.scheme (w.authority (counted p)) (counted w.rest))
      else none :=
  ofText?_of_parts hw.scheme (not_endsAuthority hw hp.counted) (comesBehind_counted hw.rest)
    (cleaned_withPassword hw p)

end QueryGateway.Proofs.Settings.Frames
