import QueryGateway.Proofs.Number.Numeral
import QueryGateway.Proofs.Settings.Frames
import QueryGateway.Proofs.Settings.Sources
import QueryGateway.Proofs.Text.Percent

/-!
Connection strings read back. A user and a password that are written with escapes hold no separator,
so the string falls apart into what it was put together from, and that wins over the environment.
-/

set_option autoImplicit false
set_option relaxedAutoImplicit false

namespace QueryGateway.Proofs.Settings.ConnectionStrings

open QueryGateway.Number
open QueryGateway.Settings
open QueryGateway.Settings.Url
open QueryGateway.Text
open QueryGateway.Proofs.Number.Numeral
open QueryGateway.Proofs.Settings.Frames
open QueryGateway.Proofs.Settings.Sources
open QueryGateway.Proofs.Settings.UrlTexts
open QueryGateway.Proofs.Settings.Urls
open QueryGateway.Proofs.Text.LetterCase
open QueryGateway.Proofs.Text.Percent
open QueryGateway.Proofs.Text.Split (cutFirst?_eq_none_iff cutLast?_eq_none_iff)

/-- What is put into a connection string. -/
structure Connection where
  scheme : String
  user : String
  password : String
  host : String
  port : Nat
  database : String

/-- A text with escapes for all but letters, digits and the marks that need none. -/
def quote (s : String) : List Char := Percent.encode Percent.isUnreserved s.toList

def isHostChar (c : Char) : Bool := c.isLower || c.isDigit || c == '-' || c == '.' || c == '_'

namespace Connection

def text (c : Connection) : String :=
  c.scheme ++ "://" ++ String.ofList (quote c.user) ++ ":" ++ String.ofList (quote c.password) ++
    "@" ++ c.host ++ ":" ++ toString c.port ++ "/" ++ c.database

/-- The parts are such as a connection string can tell. -/
structure WellFormed (c : Connection) : Prop where
  scheme : c.scheme.toList ∈ schemes
  user : c.user ≠ ""
  host : c.host ≠ "" ∧ ∀ ch ∈ c.host.toList, isHostChar ch = true
  port : 1 ≤ c.port ∧ c.port ≤ maxPort
  database : ∀ ch ∈ c.database.toList, ch ≠ '?' ∧ ch ≠ '#' ∧ isDropped ch = false
  slash : c.database.toList.head? ≠ some '/'

def place (c : Connection) : Place := ⟨c.host, c.port, c.user, c.password, c.database⟩

def frame (c : Connection) : Frame where
  scheme := c.scheme.toList
  user := quote c.user
  host := c.host.toList ++ ':' :: Numeral.digits c.port
  rest := '/' :: c.database.toList

end Connection

variable {c : Connection} {s : String} {environment : Environment} {others : DatabaseSettings}

/-! ## Parts without separators -/

/-- The characters that separate something in an authority, end it or do not count. -/
def outerChars : List Char := ['/', '?', '#', '[', ']', ':', '@', '\t', '\r', '\n']

/-- An ASCII character that stands for itself in an authority. -/
def IsInner (ch : Char) : Prop := ch.toNat < 128 ∧ ch ∉ outerChars

private theorem isInner_of_class {p : Char → Bool} (hp : outerChars.any p = false) {ch : Char}
    (hascii : ch.toNat < 128) (h : p ch = true) : IsInner ch :=
  ⟨hascii, fun hmem => List.any_eq_false.mp hp ch hmem h⟩

private theorem IsInner.ne {ch d : Char} (h : IsInner ch) (hd : d ∈ outerChars) : ch ≠ d :=
  fun heq => h.2 (heq ▸ hd)

theorem IsInner.isSeparator {ch : Char} (h : IsInner ch) : isSeparator ch = false := by
  have hne := h.2
  simp only [outerChars, List.mem_cons, not_or] at hne
  simp [Frames.isSeparator, endsAuthority, hne]

theorem IsInner.isDropped {ch : Char} (h : IsInner ch) : isDropped ch = false := by
  have hne := h.2
  simp only [outerChars, List.mem_cons, not_or] at hne
  simp [Url.isDropped, hne]

private theorem toNat_lt_of_isHostChar {ch : Char} (h : isHostChar ch = true) : ch.toNat < 128 := by
  simp only [isHostChar, Bool.or_eq_true, beq_iff_eq] at h
  rcases h with (((hlower | hdigit) | rfl) | rfl) | rfl
  · have hcased : (ch.isUpper || ch.isLower) = true := by rw [hlower, Bool.or_true]
    exact toNat_lt_of_isAlphanum (Bool.or_eq_true_iff.mpr (.inl hcased))
  · exact toNat_lt_of_isAlphanum (by simp [Char.isAlphanum, hdigit])
  all_goals decide

private theorem isInner_of_isHostChar {ch : Char} (h : isHostChar ch = true) : IsInner ch :=
  isInner_of_class (p := isHostChar) (by decide) (toNat_lt_of_isHostChar h) h

private theorem toLower_of_isHostChar {ch : Char} (h : isHostChar ch = true) : ch.toLower = ch := by
  have htable := of_ascii (p := fun ch => isHostChar ch = true → ch.toLower = ch)
    (by decide +kernel) (toNat_lt_of_isHostChar h)
  exact htable h

private theorem isInner_of_isDigit {ch : Char} (h : ch.isDigit = true) : IsInner ch :=
  isInner_of_isHostChar (by simp [isHostChar, h])

private theorem isInner_of_mem_quote : ∀ ch ∈ quote s, IsInner ch := by
  intro ch hch
  rcases mem_encode hch with hunreserved | hunreserved | rfl
  · exact isInner_of_class (p := Percent.isUnreserved) (by decide)
      (toNat_lt_of_isUnreserved hunreserved) hunreserved
  · exact isInner_of_class (p := Percent.isUnreserved) (by decide)
      (toNat_lt_of_isUnreserved hunreserved) hunreserved
  · exact ⟨by decide, by decide⟩

private theorem counted_of_isInner {t : List Char} (h : ∀ ch ∈ t, IsInner ch) : counted t = t :=
  counted_eq_self fun ch hch => (h ch hch).isDropped

private theorem isScheme_of_mem {t : List Char} (h : t ∈ schemes) :
    IsScheme t ∧ t.map Char.toLower = t := by
  simp only [schemes, List.mem_cons, List.not_mem_nil, or_false] at h
  rcases h with rfl | rfl
  all_goals exact ⟨⟨by decide, List.all_eq_true.mp (by decide)⟩, by decide⟩

/-! ## The frame of a connection string -/

theorem Connection.toList_text (c : Connection) :
    c.text.toList = c.frame.withPassword (quote c.password) := by
  simp [text, frame, Frame.withPassword, Numeral.digits]

private theorem isInner_of_mem_host (hc : c.WellFormed) :
    ∀ ch ∈ c.frame.host, IsInner ch ∨ ch = ':' := by
  intro ch hch
  rcases List.mem_append.mp hch with hhost | hport
  · exact .inl (isInner_of_isHostChar (hc.host.2 ch hhost))
  · rcases List.mem_cons.mp hport with rfl | hdigits
    · exact .inr rfl
    · exact .inl (isInner_of_isDigit (isDigit_digits c.port ch hdigits))

private theorem wellFormed_frame (hc : c.WellFormed) : c.frame.WellFormed := by
  refine ⟨(isScheme_of_mem hc.scheme).1, ⟨fun h => ?_, fun ch hch => ?_⟩,
    ⟨fun h => ?_, fun ch hch => ?_⟩, ?_⟩
  · exact (isInner_of_mem_quote _ h).ne (by decide) rfl
  · exact (isInner_of_mem_quote ch hch).isSeparator
  · rcases isInner_of_mem_host hc _ h with hinner | hcolon
    · exact hinner.ne (by decide) rfl
    · exact absurd hcolon (by decide)
  · rcases isInner_of_mem_host hc ch hch with hinner | rfl
    · exact endsAuthority_of_isSeparator hinner.isSeparator
    · rfl
  · rintro ch ⟨⟩
    rfl

private theorem isRaw_quote (s : String) : IsRaw (quote s) :=
  fun ch hch => (isInner_of_mem_quote ch hch).isSeparator

private theorem counted_frame (hc : c.WellFormed) : counted c.frame.host = c.frame.host ∧
    counted c.frame.rest = c.frame.rest := by
  constructor
  · refine counted_eq_self fun ch hch => ?_
    rcases isInner_of_mem_host hc ch hch with hinner | rfl
    · exact hinner.isDropped
    · rfl
  · refine counted_eq_self fun ch hch => ?_
    rcases List.mem_cons.mp hch with rfl | hdatabase
    · rfl
    · exact (hc.database ch hdatabase).2.2

private theorem isAccepted_of_inner {a : List Char}
    (h : ∀ ch ∈ a, IsInner ch ∨ ch = ':' ∨ ch = '@') :
    isAccepted a = true := by
  have hplain : a.any (fun ch => ambiguous.contains ch.toNat) = false := by
    have htable : ∀ n ∈ ambiguous, 128 ≤ n := by decide
    refine List.any_eq_false.mpr fun ch hch hmem => ?_
    have hlarge := htable _ (List.contains_iff_mem.mp hmem)
    rcases h ch hch with hinner | rfl | rfl
    · exact absurd hinner.1 (Nat.not_lt.mpr hlarge)
    all_goals exact absurd hlarge (by decide)
  have hbracket : ∀ bracket ∈ ['[', ']'], bracket ∉ a := by
    intro bracket hbracket hmem
    simp only [List.mem_cons, List.not_mem_nil, or_false] at hbracket
    rcases h bracket hmem with hinner | rfl | rfl
    · rcases hbracket with rfl | rfl <;> exact hinner.ne (by decide) rfl
    all_goals exact absurd hbracket (by decide)
  have hopen : a.contains '[' = false := by simpa using hbracket '[' (by decide)
  have hclose : a.contains ']' = false := by simpa using hbracket ']' (by decide)
  rw [isAccepted, hplain, hasSoundBrackets, hopen, hclose]
  rfl

def urlOf (c : Connection) : Url :=
  ofParts c.frame.scheme (c.frame.authority (quote c.password)) c.frame.rest

private theorem ofText?_connection (hc : c.WellFormed) :
    ofText? c.text.toList = some (urlOf c) := by
  have hpassword := counted_of_isInner (isInner_of_mem_quote (s := c.password))
  have haccepted : isAccepted (c.frame.authority (quote c.password)) = true := by
    refine isAccepted_of_inner fun ch hch => ?_
    simp only [Frame.authority, List.mem_append, List.mem_cons] at hch
    rcases hch with huser | rfl | hpassword | rfl | hhost
    · exact .inl (isInner_of_mem_quote ch (mem_of_mem_counted huser))
    · exact .inr (.inl rfl)
    · exact .inl (isInner_of_mem_quote ch hpassword)
    · exact .inr (.inr rfl)
    · exact (isInner_of_mem_host hc ch (mem_of_mem_counted hhost)).imp id .inl
  rw [c.toList_text, ofText?_withPassword (wellFormed_frame hc) (isRaw_quote _), hpassword,
    if_pos haccepted, (counted_frame hc).2, urlOf]

/-! ## What is read -/

private theorem userInfo_urlOf (hc : c.WellFormed) :
    (urlOf c).userInfo = some (quote c.user, some (quote c.password)) := by
  have huser : counted c.frame.user = quote c.user :=
    counted_of_isInner isInner_of_mem_quote
  rw [urlOf, userInfo_ofParts (wellFormed_frame hc), huser]

private theorem hostInfo_urlOf (hc : c.WellFormed) :
    (urlOf c).hostInfo = (c.host.toList, Numeral.digits c.port) := by
  have hinner : ∀ ch ∈ c.host.toList, IsInner ch := fun ch hch =>
    isInner_of_isHostChar (hc.host.2 ch hch)
  have hhost : hostText c.frame.host = ⟨[], false, c.host.toList, Numeral.digits c.port⟩ := by
    have hcolon : ':' ∉ c.host.toList := fun h => (hinner _ h).ne (by decide) rfl
    have hsign : '@' ∉ c.frame.host := (counted_frame hc).1 ▸ (wellFormed_frame hc).sign_not_mem
    have hbracket : '[' ∉ c.frame.host := fun h =>
      (isInner_of_mem_host hc _ h).elim (fun hin => hin.ne (by decide) rfl) (absurd · (by decide))
    have hcut : cutAt ':' c.frame.host = (c.host.toList, Numeral.digits c.port) :=
      cutAt_append hcolon
    simp only [hostText, cutLast?_eq_none_iff.mpr hsign,
      cutFirst?_eq_none_iff.mpr hbracket, hcut]
  have htext : hostText (urlOf c).authority = hostText c.frame.host := by
    rw [← (counted_frame hc).1]
    exact hostText_authority (wellFormed_frame hc) _
  rw [hostInfo, htext, hhost]
  rfl

private theorem host_urlOf (hc : c.WellFormed) : (urlOf c).host = c.host.toList := by
  have hzone : '%' ∉ c.host.toList := fun h => absurd (hc.host.2 _ h) (by decide)
  have hlower : LetterCase.lower c.host.toList = c.host.toList := by
    rw [lower_of_ascii fun ch hch => toNat_lt_of_isHostChar (hc.host.2 ch hch)]
    conv_rhs => rw [← List.map_id c.host.toList]
    exact List.map_congr_left fun ch hch => toLower_of_isHostChar (hc.host.2 ch hch)
  rw [Url.host, hostInfo_urlOf hc]
  simp only [cutFirst?_eq_none_iff.mpr hzone, hlower]

private theorem port?_urlOf (hc : c.WellFormed) : (urlOf c).port? = some (some c.port) := by
  have hne : (Numeral.digits c.port).isEmpty = false := by simpa using digits_ne_nil c.port
  rw [port?, hostInfo_urlOf hc]
  simp only [hne, nat?_digits, if_pos hc.port.2]
  rfl

private theorem path_urlOf (hc : c.WellFormed) : (urlOf c).path = '/' :: c.database.toList := by
  have hfragment : '#' ∉ c.frame.rest := by
    intro h
    rcases List.mem_cons.mp h with hslash | hdatabase
    · exact absurd hslash (by decide)
    · exact (hc.database _ hdatabase).2.1 rfl
  have hquery : '?' ∉ c.frame.rest := by
    intro h
    rcases List.mem_cons.mp h with hslash | hdatabase
    · exact absurd hslash (by decide)
    · exact (hc.database _ hdatabase).1 rfl
  rw [urlOf, ofParts]
  dsimp only
  rw [cutAt_of_not_mem hfragment, cutAt_of_not_mem hquery]
  rfl

private theorem decodedOr_quote {default : String} (h : s = "" → default = "") :
    DatabaseSettings.decodedOr default (some (quote s)) = .text s := by
  have hdecoded : Percent.decode (quote s) = s.toList := by
    rw [quote, decode_encode canBeKept_isUnreserved]
  -- An empty part counts as a missing one, whose default is read.
  cases hquote : quote s with
  | nil =>
    rw [hquote] at hdecoded
    obtain rfl : s = "" := String.toList_eq_nil_iff.mp hdecoded.symm
    rw [h rfl]
    rfl
  | cons ch chs =>
    rw [hquote] at hdecoded
    rw [DatabaseSettings.decodedOr, hdecoded, String.ofList_toList]

private theorem valuesOf_urlOf (hc : c.WellFormed) :
    DatabaseSettings.valuesOf (urlOf c) (some c.port) = c.place.values := by
  have huser : DatabaseSettings.decodedOr "root" (urlOf c).user? = .text c.user := by
    rw [user?, userInfo_urlOf hc]
    exact decodedOr_quote fun hempty => absurd hempty hc.user
  have hpassword : DatabaseSettings.decodedOr "" (urlOf c).password? = .text c.password := by
    rw [password?, userInfo_urlOf hc]
    exact decodedOr_quote fun _ => rfl
  have hdatabase : (urlOf c).path.dropWhile (· == '/') = c.database.toList := by
    rw [path_urlOf hc, List.dropWhile_cons_of_pos rfl]
    cases hchars : c.database.toList with
    | nil => rfl
    | cons ch chs =>
      have hslash : ch ≠ '/' := fun h => hc.slash (by rw [hchars, h]; rfl)
      exact List.dropWhile_cons_of_neg (by simpa using hslash)
  have hhost : (urlOf c).host.isEmpty = false := by
    rw [host_urlOf hc]
    simpa using hc.host.1
  have hport : c.port ≠ 0 := Nat.ne_of_gt hc.port.1
  unfold DatabaseSettings.valuesOf
  rw [huser, hpassword, hdatabase, hhost, host_urlOf hc]
  simp [Place.values, Connection.place]

private theorem connectionValues_text (hc : c.WellFormed) :
    DatabaseSettings.connectionValues c.text = .ok c.place.values := by
  have hscheme : (urlOf c).scheme = c.scheme.toList := (isScheme_of_mem hc.scheme).2
  have hknown : ((urlOf c).scheme == "mysql".toList ||
      (urlOf c).scheme == "mysql2".toList) = true := by
    have hmem := hc.scheme
    rw [hscheme]
    simpa [schemes] using hmem
  rw [DatabaseSettings.connectionValues, ofText?_connection hc]
  simp only [port?_urlOf hc, if_pos hknown, valuesOf_urlOf hc]

/-! ## Any text -/

private theorem decodedOr_eq_text (default : String) (part : Option (List Char)) :
    ∃ t, DatabaseSettings.decodedOr default part = .text t := by
  unfold DatabaseSettings.decodedOr
  split <;> exact ⟨_, rfl⟩

private theorem le_maxPort_of_port? {u : Url} {n : Nat} (h : u.port? = some (some n)) :
    n ≤ maxPort := by
  simp only [port?] at h
  split at h
  · cases h
  · split at h
    · split at h
      · rename_i hle
        cases h
        exact hle
      · cases h
    · cases h

private theorem exists_place_of_port? {u : Url} {port : Option Nat} (h : u.port? = some port) :
    ∃ p : Place, DatabaseSettings.valuesOf u port = p.values ∧ 1 ≤ p.port ∧ p.port ≤ 65535 := by
  obtain ⟨user, huser⟩ := decodedOr_eq_text "root" u.user?
  obtain ⟨password, hpassword⟩ := decodedOr_eq_text "" u.password?
  have hdefault : (1 : Int) ≤ 3306 ∧ (3306 : Int) ≤ 65535 := by omega
  unfold DatabaseSettings.valuesOf
  rw [huser, hpassword]
  cases port with
  | none => exact ⟨⟨_, 3306, user, password, _⟩, rfl, hdefault⟩
  | some n =>
    have hn : n ≤ 65535 := le_maxPort_of_port? h
    -- A port of zero is taken for none.
    cases n with
    | zero => exact ⟨⟨_, 3306, user, password, _⟩, rfl, hdefault⟩
    | succ n =>
      have hwithin : (1 : Int) ≤ (n + 1 : Nat) ∧ ((n + 1 : Nat) : Int) ≤ 65535 := by omega
      exact ⟨⟨_, (n + 1 : Nat), user, password, _⟩, rfl, hwithin⟩

def IsRefusal (f : Fault) : Prop :=
  f.category.name = "ValidationError" ∧ f.code.text = "CONFIG_002"

private theorem isRefusal_refusal (message : String) :
    IsRefusal (DatabaseSettings.refusal message) :=
  ⟨rfl, rfl⟩

theorem connectionValues_cases (s : String) :
    (∃ p : Place, DatabaseSettings.connectionValues s = .ok p.values ∧ 1 ≤ p.port ∧
      p.port ≤ 65535) ∨
    ∃ f, DatabaseSettings.connectionValues s = .error f ∧ IsRefusal f := by
  rw [DatabaseSettings.connectionValues]
  split
  · exact .inr ⟨_, rfl, isRefusal_refusal _⟩
  · split
    · exact .inr ⟨_, rfl, isRefusal_refusal _⟩
    · rename_i port hport
      split
      · obtain ⟨p, hp, hbounds⟩ := exists_place_of_port? hport
        exact .inl ⟨p, congrArg _ hp, hbounds⟩
      · exact .inr ⟨_, rfl, isRefusal_refusal _⟩

private theorem accepted_or_refused (h : IsClean environment) (s : String) :
    (∃ settings, DatabaseSettings.ofConnectionString s [] environment = .ok (.good settings)) ∨
      ∃ f, DatabaseSettings.ofConnectionString s [] environment = .error f ∧ IsRefusal f := by
  rw [DatabaseSettings.ofConnectionString]
  rcases connectionValues_cases s with ⟨p, hvalues, hport⟩ | ⟨f, hvalues, hrefusal⟩
  · have hothers : DatabaseSettings.ofValues [] (withoutPlace environment) =
        DatabaseSettings.ofValues [] [] := ofValues_of_isClean h.withoutPlace
    rw [hvalues]
    exact .inl ⟨_, congrArg Except.ok (ofValues_place hport hothers)⟩
  · rw [hvalues]
    exact .inr ⟨f, rfl, hrefusal⟩

/-- A connection string gives back what was put into it, whatever the environment tells of the
place; and a text that is no connection string is refused as invalid configuration. -/
theorem connection_string_read_back (hc : c.WellFormed)
    (h : DatabaseSettings.ofValues [] (withoutPlace environment) = .good others) :
    DatabaseSettings.ofConnectionString c.text [] environment =
        .ok (.good (c.place.within others)) ∧
      ∀ clean, IsClean clean → ∀ s,
        (∃ settings, DatabaseSettings.ofConnectionString s [] clean = .ok (.good settings)) ∨
          ∃ f, DatabaseSettings.ofConnectionString s [] clean = .error f ∧ IsRefusal f := by
  have hport : 1 ≤ c.place.port ∧ c.place.port ≤ 65535 := by
    obtain ⟨hlow, hhigh⟩ := hc.port
    exact ⟨Int.ofNat_le.mpr hlow, Int.ofNat_le.mpr hhigh⟩
  refine ⟨?_, fun clean hclean s => accepted_or_refused hclean s⟩
  rw [DatabaseSettings.ofConnectionString, connectionValues_text hc]
  exact congrArg Except.ok (ofValues_place hport h)

def separated : Connection :=
  ⟨"mysql2", "o:p@s/é", "%41:@/?#[]", "db-1.internal", 3307, "shop"⟩

/-- An environment that tells another place, with a port that is no number. -/
def elsewhere : Environment :=
  [("SQLGATE_DB_HOST", "elsewhere"), ("sqlgate_db_port", "none"), ("SQLGATE_DB_PASSWORD", "old")]

def defaults : DatabaseSettings where
  host := "localhost"
  port := 3306
  user := "root"
  password := ""
  database := ""
  driver := "mysql+pymysql"
  connectionLimit := 20
  acquireTimeout := Binary64.ofInt 120
  connectTimeout := Binary64.ofInt 30
  statementTimeout := Binary64.ofInt 120
  idleTimeout := Binary64.ofInt 60
  maxRetries := 3
  retryDelay := Binary64.ofInt 1

theorem connection_string_read_back_separated :
    separated.WellFormed ∧
      DatabaseSettings.ofValues [] (withoutPlace elsewhere) = .good defaults ∧
      DatabaseSettings.ofConnectionString separated.text [] elsewhere =
        .ok (.good (separated.place.within defaults)) ∧
      ((∃ settings, DatabaseSettings.ofConnectionString "mysql://[::1" [] [] =
          .ok (.good settings)) ∨
        ∃ f, DatabaseSettings.ofConnectionString "mysql://[::1" [] [] = .error f ∧ IsRefusal f) :=
  have hc : separated.WellFormed :=
    ⟨by decide, by decide, ⟨by decide, List.all_eq_true.mp (by decide)⟩, by decide,
      by simp [separated, isDropped], by decide⟩
  have hothers : DatabaseSettings.ofValues [] (withoutPlace elsewhere) = .good defaults := by
    have hnone : withoutPlace elsewhere = [] := by decide
    rw [hnone]
    rfl
  have hread := connection_string_read_back hc hothers
  ⟨hc, hothers, hread.1, hread.2 [] nofun "mysql://[::1"⟩

end QueryGateway.Proofs.Settings.ConnectionStrings
