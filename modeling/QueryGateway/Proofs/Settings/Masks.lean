import QueryGateway.Proofs.Settings.Frames

/-!
Connection strings with their password masked. The colon behind the user is the first one of the
authority and the at sign in front of the host the last one, so what is replaced is the password and
all of it, whatever it repeats of the user, the host or the path.
-/

set_option autoImplicit false
set_option relaxedAutoImplicit false

namespace QueryGateway.Proofs.Settings.Masks

open QueryGateway.Settings
open QueryGateway.Settings.Url
open QueryGateway.Proofs.Settings.Frames
open QueryGateway.Proofs.Settings.Urls
open QueryGateway.Proofs.Settings.UrlTexts
open QueryGateway.Proofs.Text.Split (replaceFirst_append)

/-- Two URLs that differ in their passwords only. -/
structure SameButPassword (u v : Url) : Prop where
  scheme : u.scheme = v.scheme
  user : u.user? = v.user?
  host : u.host = v.host
  port : u.port? = v.port?
  path : u.path = v.path
  query : u.query = v.query
  fragment : u.fragment = v.fragment

variable {w : Frame} {p q : List Char} {u v : Url}

private theorem isRaw_mask : IsRaw mask := by
  simp [IsRaw, mask, isSeparator, endsAuthority]

private theorem isAccepted_mask (hw : w.WellFormed) (hp : IsRaw p)
    (h : isAccepted (w.authority p) = true) : isAccepted (w.authority mask) = true := by
  have hplain : (':' :: mask).any (fun c => ambiguous.contains c.toNat) = false := by decide
  rw [isAccepted_authority hw hp, List.any_append, Bool.not_or, Bool.and_eq_true,
    Bool.and_eq_true] at h
  rw [isAccepted_authority hw isRaw_mask, List.any_append, hplain, Bool.or_false, h.1, h.2.1]
  rfl

private theorem eq_ofParts (hw : w.WellFormed) (hp : IsRaw p)
    (hu : ofText? (w.withPassword p) = some u) :
    u = ofParts w.scheme (w.authority (counted p)) (counted w.rest) ∧
      isAccepted (w.authority (counted p)) = true := by
  rw [ofText?_withPassword hw hp] at hu
  split at hu
  · rename_i haccepted
    exact ⟨(Option.some.inj hu).symm, haccepted⟩
  · cases hu

private theorem masked_ofParts (hw : w.WellFormed) (p rest : List Char) :
    (ofParts w.scheme (w.authority p) rest).masked = ofParts w.scheme (w.authority mask) rest := by
  -- The first colon is the one behind the user, so the replacement begins there.
  have hreplaced : Text.Split.replaceFirst (':' :: p ++ ['@']) (':' :: mask ++ ['@'])
      (w.authority p) = w.authority mask := by
    have hfirst := replaceFirst_append hw.colon_not_mem (p ++ ['@']) (':' :: mask ++ ['@'])
      (counted w.host)
    simpa [Frame.authority] using hfirst
  rw [masked, password?_ofParts hw]
  dsimp only
  rw [show (ofParts w.scheme (w.authority p) rest).authority = w.authority p from rfl, hreplaced]
  rfl

private theorem sameButPassword (hw : w.WellFormed) (p q rest : List Char) :
    SameButPassword (ofParts w.scheme (w.authority p) rest)
      (ofParts w.scheme (w.authority q) rest) := by
  have hinfo : (ofParts w.scheme (w.authority p) rest).hostInfo =
      (ofParts w.scheme (w.authority q) rest).hostInfo := by
    have hsame : hostText (ofParts w.scheme (w.authority p) rest).authority =
        hostText (ofParts w.scheme (w.authority q) rest).authority :=
      (hostText_authority hw p).trans (hostText_authority hw q).symm
    rw [hostInfo, hostInfo, hsame]
  refine ⟨rfl, ?_, ?_, ?_, rfl, rfl, rfl⟩
  · rw [user?, user?, userInfo_ofParts hw, userInfo_ofParts hw]
    rfl
  · rw [Url.host, Url.host, hinfo]
  · rw [port?, port?, hinfo]

private theorem maskText?_withPassword (hw : w.WellFormed) (hp : IsRaw p)
    (hu : ofText? (w.withPassword p) = some u) :
    maskText? (w.withPassword p) =
      some (ofParts w.scheme (w.authority mask) (counted w.rest)).text := by
  obtain ⟨rfl, _⟩ := eq_ofParts hw hp hu
  have hne : (w.withPassword p).isEmpty = false := by
    have hscheme := hw.scheme.ne_nil
    simp [Frame.withPassword, hscheme]
  rw [maskText?, hne, if_neg Bool.false_ne_true, hu, Option.map_some, password?_ofParts hw,
    masked_ofParts hw]
  rfl

private theorem isWhole_mask (hw : w.WellFormed) (hp : IsRaw p)
    (h : isAccepted (w.authority p) = true) :
    IsWhole (ofParts w.scheme (w.authority mask) (counted w.rest)) := by
  have hkept : ∀ s, ∀ c ∈ counted s, isDropped c = false := by
    intro s c hc
    simpa using (List.mem_filter.mp hc).2
  have hplain : ∀ c ∈ ':' :: mask ++ ['@'], isDropped c = false := by
    simp [mask, isDropped]
  refine isWhole_ofParts hw.scheme (not_endsAuthority hw isRaw_mask) (isAccepted_mask hw hp h)
    (comesBehind_counted hw.rest) fun c hc => ?_
  have hcut : w.authority mask ++ counted w.rest =
      counted w.user ++ ((':' :: mask ++ ['@']) ++ (counted w.host ++ counted w.rest)) := by
    simp [Frame.authority]
  rw [hcut] at hc
  rcases List.mem_append.mp hc with huser | hbehind
  · exact hkept _ c huser
  · rcases List.mem_append.mp hbehind with hmask | hlast
    · exact hplain c hmask
    · exact (List.mem_append.mp hlast).elim (hkept _ c) (hkept _ c)

/-- The text that is made depends on the password in nothing, and it denotes the same URL but for
the mask in place of the password, which is hidden as a whole. -/
theorem mask_hides_password (hw : w.WellFormed) (hp : IsRaw p) (hq : IsRaw q)
    (hu : ofText? (w.withPassword p) = some u) (hv : ofText? (w.withPassword q) = some v) :
    ∃ text m, maskText? (w.withPassword p) = some text ∧
      maskText? (w.withPassword q) = some text ∧ ofText? text = some m ∧
      m.password? = some mask ∧ SameButPassword m u ∧ SameButPassword m v ∧
      u.password? = some (counted p) ∧ v.password? = some (counted q) := by
  obtain ⟨hup, haccepted⟩ := eq_ofParts hw hp hu
  obtain ⟨hvq, _⟩ := eq_ofParts hw hq hv
  have hwhole := isWhole_mask hw hp.counted haccepted
  refine ⟨_, _, maskText?_withPassword hw hp hu, maskText?_withPassword hw hq hv,
    ofText?_text hwhole, password?_ofParts hw mask _, ?_, ?_, ?_, ?_⟩
  · rw [hup]
    exact sameButPassword hw _ _ _
  · rw [hvq]
    exact sameButPassword hw _ _ _
  · rw [hup]
    exact password?_ofParts hw _ _
  · rw [hvq]
    exact password?_ofParts hw _ _

/-- A connection string whose path tells the user and something like a password again. -/
def repeating : Frame :=
  ⟨"mysql".toList, "app".toList, "[::1]:3306".toList, "/app::app@?x=1#".toList⟩

def repeatingUrl (password : String) : Url :=
  ⟨"mysql".toList, ("app:" ++ password ++ "@[::1]:3306").toList, "/app::app@".toList,
    "x=1".toList, []⟩

theorem mask_hides_password_repeating :
    repeating.WellFormed ∧ IsRaw ":app@".toList ∧ IsRaw [] ∧
      ofText? (repeating.withPassword ":app@".toList) = some (repeatingUrl ":app@") ∧
      ofText? (repeating.withPassword []) = some (repeatingUrl "") ∧
      ∃ text m, maskText? (repeating.withPassword ":app@".toList) = some text ∧
        maskText? (repeating.withPassword []) = some text ∧ ofText? text = some m ∧
        m.password? = some mask ∧ SameButPassword m (repeatingUrl ":app@") ∧
        SameButPassword m (repeatingUrl "") ∧
        (repeatingUrl ":app@").password? = some (counted ":app@".toList) ∧
        (repeatingUrl "").password? = some (counted []) :=
  have hw : repeating.WellFormed :=
    ⟨⟨by decide, List.all_eq_true.mp (by decide)⟩,
      by simp [repeating, isSeparator, endsAuthority], by simp [repeating, endsAuthority],
      by simp [ComesBehind, repeating, endsAuthority]⟩
  have hp : IsRaw ":app@".toList := by simp [IsRaw, isSeparator, endsAuthority]
  have hq : IsRaw [] := nofun
  have hu : ofText? (repeating.withPassword ":app@".toList) = some (repeatingUrl ":app@") := by
    decide +kernel
  have hv : ofText? (repeating.withPassword []) = some (repeatingUrl "") := by decide +kernel
  ⟨hw, hp, hq, hu, hv, mask_hides_password hw hp hq hu hv⟩

end QueryGateway.Proofs.Settings.Masks
