import QueryGateway.Proofs.Settings.Bounds
import QueryGateway.Proofs.Text.Runs
import QueryGateway.Proofs.Text.Split

/-!
Where the parts of a URL stand in the text of it. Some characters of the text do not count, so the
password of a URL is written as a text of which the URL has the characters that count. A connection
string with a password is the text of a URL, cut at both ends of that.
-/

set_option autoImplicit false
set_option relaxedAutoImplicit false

namespace QueryGateway.Proofs.Settings.Urls

open QueryGateway.Input
open QueryGateway.Settings
open QueryGateway.Settings.Url
open QueryGateway.Text
open QueryGateway.Proofs.Settings.Bounds
open QueryGateway.Proofs.Text.Runs (dropWhile_parted head?_dropWhile)
open QueryGateway.Proofs.Text.Split

variable {s t : List Char} {u : Url}

/-! ## Characters that count -/

def counted (s : List Char) : List Char := s.filter fun c => !isDropped c

theorem counted_append (s t : List Char) : counted (s ++ t) = counted s ++ counted t :=
  List.filter_append ..

private theorem isLeadingJunk_of_isDropped {c : Char} (h : isDropped c = true) :
    isLeadingJunk c = true := by
  simp only [isDropped, Bool.or_eq_true, beq_iff_eq] at h
  rcases h with (rfl | rfl) | rfl <;> decide

theorem counted_eq_self (h : ∀ c ∈ s, isDropped c = false) : counted s = s :=
  List.filter_eq_self.mpr fun c hc => by rw [h c hc]; rfl

theorem mem_counted {c : Char} (h : isDropped c = false) : c ∈ counted s ↔ c ∈ s := by
  simp [counted, h]

theorem cleaned_append (ht : ∀ d ∈ t.head?, isLeadingJunk d = false) :
    cleaned (s ++ t) = cleaned s ++ counted t := by
  have hdrop : (s ++ t).dropWhile isLeadingJunk = s.dropWhile isLeadingJunk ++ t := by
    rw [List.dropWhile_append]
    split
    · rename_i hempty
      rw [List.isEmpty_iff.mp hempty, List.nil_append]
      simpa using dropWhile_parted (w := []) nofun ht
    · rfl
  rw [cleaned, hdrop, cleaned]
  exact counted_append ..

theorem isLeadingJunk_of_cleaned_eq_nil (h : cleaned s = []) :
    ∀ c ∈ s, isLeadingJunk c = true := by
  have hdrop : s.dropWhile isLeadingJunk = [] := by
    cases hs : s.dropWhile isLeadingJunk with
    | nil => rfl
    | cons d r =>
      rw [cleaned, hs] at h
      have hdropped : isDropped d = true := by
        simpa using List.filter_eq_nil_iff.mp h d List.mem_cons_self
      have hjunk := head?_dropWhile (p := isLeadingJunk) (s := s) d (by rw [hs]; rfl)
      rw [isLeadingJunk_of_isDropped hdropped] at hjunk
      cases hjunk
  exact List.dropWhile_eq_nil_iff.mp hdrop

/-! ## Users and passwords -/

theorem userInfo_eq_some_iff {user password : List Char} :
    u.userInfo = some (user, some password) ↔
      ∃ host, u.authority = user ++ ':' :: (password ++ '@' :: host) ∧ ':' ∉ user ∧ '@' ∉ host := by
  rw [userInfo, Option.map_eq_some_iff]
  constructor
  · rintro ⟨⟨info, host⟩, hcut, hinfo⟩
    obtain ⟨hauthority, hhost⟩ := cutLast?_eq_some_iff.mp hcut
    dsimp only at hinfo
    split at hinfo
    · rename_i user' password' hfirst
      cases hinfo
      obtain ⟨rfl, huser⟩ := cutFirst?_eq_some_iff.mp hfirst
      exact ⟨host, by simp [hauthority], huser, hhost⟩
    · cases hinfo
  · rintro ⟨host, hauthority, huser, hhost⟩
    refine ⟨(user ++ ':' :: password, host), ?_, ?_⟩
    · exact cutLast?_eq_some_iff.mpr ⟨by simp [hauthority], hhost⟩
    · simp only [cutFirst?_append huser]

private theorem userInfo_of_parts {user password : List Char} (huser : u.user? = some user)
    (hpassword : u.password? = some password) : u.userInfo = some (user, some password) := by
  rw [user?, Option.map_eq_some_iff] at huser
  obtain ⟨⟨user', password'⟩, hinfo, rfl⟩ := huser
  rw [password?, hinfo] at hpassword
  rw [hinfo, show password' = some password from hpassword]

private theorem not_endsAuthority_of_mem (h : ofText? s = some u) :
    ∀ c ∈ u.authority, endsAuthority c = false := by
  rw [ofText?] at h
  dsimp only at h
  split at h
  · cases h
    unfold takeAuthority
    split
    · intro c hc
      simpa using List.mem_takeWhile_imp hc
    · nofun
  · cases h

/-! ## The place of the password -/

/-- A text of a URL, cut in front of the raw text of its password and behind it: between the colon
behind the user and the at sign in front of the host. -/
structure IsPasswordOf (u : Url) (front password rest : List Char) : Prop where
  denotes : ofText? (front ++ (password ++ rest)) = some u
  beginning : ∃ scheme user, cleaned front = scheme ++ ("://".toList ++ (user ++ [':'])) ∧
    scheme.map Char.toLower = u.scheme ∧ u.user? = some user
  colon : front.getLast? = some ':'
  counts : u.password? = some (counted password)
  sign : rest.head? = some '@'

variable {front password rest : List Char}

theorem IsPasswordOf.userInfo_eq (h : IsPasswordOf u front password rest) {user : List Char}
    (huser : u.user? = some user) : ':' ∉ user ∧ '/' ∉ user ∧ '/' ∉ password := by
  obtain ⟨host, hauthority, hcolon, _⟩ :=
    userInfo_eq_some_iff.mp (userInfo_of_parts huser h.counts)
  have hslash : '/' ∉ u.authority := fun hmem =>
    absurd (not_endsAuthority_of_mem h.denotes '/' hmem) (by decide)
  rw [hauthority] at hslash
  refine ⟨hcolon, fun hmem => hslash (by simp [hmem]), fun hmem => hslash ?_⟩
  have hcounted := (mem_counted (show isDropped '/' = false by decide)).mpr hmem
  simp [hcounted]

private theorem takeScheme_eq (h : (takeScheme s).1 ≠ []) :
    ∃ front, s = front ++ ':' :: (takeScheme s).2 ∧ front.map Char.toLower = (takeScheme s).1 := by
  rw [takeScheme] at h ⊢
  split at h
  · rename_i front rest hcut
    split at h
    · rename_i hsound
      rw [if_pos hsound]
      exact ⟨front, (cutFirst?_eq_some_iff.mp hcut).1, rfl⟩
    · exact absurd rfl h
  · exact absurd rfl h

private theorem takeAuthority_eq (h : (takeAuthority s).1 ≠ []) :
    s = '/' :: '/' :: ((takeAuthority s).1 ++ (takeAuthority s).2) := by
  unfold takeAuthority at h ⊢
  split at h
  · rw [List.takeWhile_append_dropWhile]
  · exact absurd rfl h

private theorem cleaned_eq_of_ofText? (h : ofText? s = some u) (hscheme : u.scheme ≠ [])
    (hauthority : u.authority ≠ []) :
    ∃ scheme r, cleaned s = scheme ++ ("://".toList ++ (u.authority ++ r)) ∧
      scheme.map Char.toLower = u.scheme := by
  rw [ofText?] at h
  dsimp only at h
  split at h
  · cases h
    obtain ⟨scheme, hcleaned, hlower⟩ := takeScheme_eq hscheme
    exact ⟨scheme, _,
      hcleaned.trans (congrArg (scheme ++ ':' :: ·) (takeAuthority_eq hauthority)), hlower⟩
  · cases h

private theorem exists_of_counted_eq_append {c : Char} {a b : List Char}
    (h : counted s = a ++ c :: b) :
    ∃ front rest, s = front ++ c :: rest ∧ counted front = a ∧ counted rest = b := by
  obtain ⟨l, m, rfl, hl, hm⟩ := List.filter_eq_append_iff.mp h
  obtain ⟨dropped, rest, rfl, hdropped, _, hrest⟩ := List.filter_eq_cons_iff.mp hm
  refine ⟨l ++ dropped, rest, by simp, ?_, hrest⟩
  rw [counted_append, show counted l = a from hl,
    show counted dropped = [] from List.filter_eq_nil_iff.mpr hdropped, List.append_nil]

private theorem exists_isPasswordOf (h : ofText? s = some u) (hscheme : u.scheme ≠ [])
    {secret : List Char} (hsecret : u.password? = some secret) :
    ∃ front password rest, s = front ++ (password ++ rest) ∧
      IsPasswordOf u front password rest ∧ counted password = secret := by
  obtain ⟨user, huser⟩ : ∃ user, u.user? = some user := by
    obtain ⟨info, hinfo, _⟩ := Option.bind_eq_some_iff.mp hsecret
    exact ⟨info.1, by rw [user?, hinfo]; rfl⟩
  obtain ⟨host, hauthority, _⟩ := userInfo_eq_some_iff.mp (userInfo_of_parts huser hsecret)
  obtain ⟨scheme, r, hcleaned, hlower⟩ :=
    cleaned_eq_of_ofText? h hscheme (by rw [hauthority]; simp)
  -- the text is cut at the colon and then at the at sign, both of which count
  obtain ⟨front, behind, hfront, hfrontCounted, hbehind⟩ :=
    exists_of_counted_eq_append (s := s.dropWhile isLeadingJunk) (c := ':')
      (a := scheme ++ ("://".toList ++ user)) (b := secret ++ '@' :: (host ++ r))
      (hcleaned.trans (by simp [hauthority]))
  obtain ⟨password, rest, rfl, rfl, _⟩ := exists_of_counted_eq_append hbehind
  have hs : s = (s.takeWhile isLeadingJunk ++ front ++ [':']) ++ (password ++ '@' :: rest) := by
    conv_lhs => rw [← List.takeWhile_append_dropWhile (p := isLeadingJunk) (l := s), hfront]
    simp
  refine ⟨_, password, '@' :: rest, hs, ⟨hs ▸ h, ⟨scheme, user, ?_, hlower, huser⟩, ?_, hsecret,
    rfl⟩, rfl⟩
  · have hstart : ∀ d ∈ (front ++ [':']).head?, isLeadingJunk d = false := by
      intro d hd
      refine head?_dropWhile (s := s) d ?_
      rw [hfront]
      cases front <;> exact hd
    have hjunk : cleaned (s.takeWhile isLeadingJunk) = [] := by
      rw [cleaned, List.dropWhile_eq_nil_iff.mpr fun c hc => List.mem_takeWhile_imp hc]
      rfl
    rw [List.append_assoc, cleaned_append hstart, hjunk, counted_append, hfrontCounted]
    simp [counted, isDropped]
  · rw [List.getLast?_concat]

/-! ## Connection strings -/

variable {settings : DatabaseSettings} {environment : Environment}

/-- An accepted connection string, cut in front of the raw text of its password and behind it. -/
structure IsConnection (settings : DatabaseSettings) (front password rest : List Char) : Prop where
  accepted : ∃ environment, DatabaseSettings.ofConnectionString
    (String.ofList (front ++ (password ++ rest))) [] environment = .ok (.good settings)
  cut : ∃ u, IsPasswordOf u front password rest
  decoded : settings.password = String.ofList (Percent.decode (counted password))

def schemes : List (List Char) := ["mysql".toList, "mysql2".toList]

private theorem password_of_ofValues {port : Option Nat}
    (h : DatabaseSettings.ofValues (DatabaseSettings.valuesOf u port) environment = .good settings) :
    settings.password = String.ofList (Percent.decode (u.password?.getD [])) := by
  have hread := (readFrom_of_ofSource (congrArg Checked.value? h)).password
  have hnames : (lower "host" == "password") = false ∧ (lower "port" == "password") = false ∧
      (lower "user" == "password") = false ∧ (lower "password" == "password") = true := by decide
  have hget : Source.get? ⟨DatabaseSettings.valuesOf u port, environment, "sqlgate_db_"⟩ "password" =
      some (DatabaseSettings.decodedOr "" u.password?) := by
    simp [Source.get?, Source.explicit?, DatabaseSettings.valuesOf, hnames]
  rw [Source.setting, hget] at hread
  dsimp only at hread
  rw [value?_within] at hread
  cases hparts : u.password? with
  | none =>
    rw [hparts] at hread
    exact (Option.some.inj hread).symm
  | some secret =>
    rw [hparts] at hread
    cases secret <;> exact (Option.some.inj hread).symm

theorem exists_url_of_accepted {s : String}
    (h : DatabaseSettings.ofConnectionString s [] environment = .ok (.good settings)) :
    ∃ u, ofText? s.toList = some u ∧ u.scheme ∈ schemes ∧
      settings.password = String.ofList (Percent.decode (u.password?.getD [])) := by
  rw [DatabaseSettings.ofConnectionString, DatabaseSettings.connectionValues] at h
  cases hu : ofText? s.toList with
  | none =>
    rw [hu] at h
    cases h
  | some u =>
    rw [hu] at h
    dsimp only at h
    split at h
    · cases h
    · rename_i port _
      split at h
      · rename_i hscheme
        refine ⟨u, rfl, ?_, password_of_ofValues (Except.ok.inj h)⟩
        simpa [schemes] using hscheme
      · cases h

theorem exists_isConnection {s : String}
    (h : DatabaseSettings.ofConnectionString s [] environment = .ok (.good settings))
    (hpassword : settings.password ≠ "") :
    ∃ front password rest, s.toList = front ++ (password ++ rest) ∧
      IsConnection settings front password rest := by
  obtain ⟨u, hu, hscheme, hdecoded⟩ := exists_url_of_accepted h
  have hnamed : u.scheme ≠ [] := by
    intro hempty
    rw [hempty] at hscheme
    exact absurd hscheme (by decide)
  cases hsecret : u.password? with
  | none =>
    rw [hsecret] at hdecoded
    exact absurd hdecoded hpassword
  | some secret =>
    obtain ⟨front, password, rest, hs, hcut, rfl⟩ := exists_isPasswordOf hu hnamed hsecret
    refine ⟨front, password, rest, hs, ⟨environment, ?_⟩, ⟨u, hcut⟩, ?_⟩
    · rw [← hs, String.ofList_toList, h]
    · rw [hdecoded, hsecret, Option.getD_some]

end QueryGateway.Proofs.Settings.Urls
