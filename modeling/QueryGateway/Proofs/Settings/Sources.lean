import QueryGateway.Proofs.Settings.Bounds

/-!
Where settings come from. Explicit values win over the environment, so a variable of the environment
counts for nothing where an explicit value stands in its place.
-/

set_option autoImplicit false
set_option relaxedAutoImplicit false

namespace QueryGateway.Proofs.Settings.Sources

open QueryGateway.Input
open QueryGateway.Settings
open QueryGateway.Proofs.Settings.Bounds

variable {α : Type} {s t : Source} {name : String} {v : Value} {environment : Environment}

/-! ## Single settings -/

theorem eq_good_iff {a : Checked α} {b : α} : a = .good b ↔ a.value? = some b := by
  cases a <;> simp [Checked.value?]

private theorem setting_of_get? (h : s.get? name = some v) (default : α)
    (read : Value → Checked α) :
    (s.setting name default read).value? = (read v).value? := by
  rw [Source.setting, h]
  exact value?_within

private theorem setting_congr (h : s.get? name = t.get? name) (default : α)
    (read : Value → Checked α) :
    s.setting name default read = t.setting name default read := by
  rw [Source.setting, Source.setting, h]

/-! ## Whole records -/

private theorem ofSource_of_readFrom {c : DatabaseSettings} (h : ReadFrom s c) :
    DatabaseSettings.ofSource s = .good c := by
  simp only [DatabaseSettings.ofSource, eq_good_iff.mpr h.host, eq_good_iff.mpr h.port,
    eq_good_iff.mpr h.user, eq_good_iff.mpr h.password, eq_good_iff.mpr h.database,
    eq_good_iff.mpr h.driver, eq_good_iff.mpr h.connectionLimit, eq_good_iff.mpr h.acquireTimeout,
    eq_good_iff.mpr h.connectTimeout, eq_good_iff.mpr h.statementTimeout,
    eq_good_iff.mpr h.idleTimeout, eq_good_iff.mpr h.maxRetries, eq_good_iff.mpr h.retryDelay]
  rfl

/-- What a connection string tells: where the database is and how to log in. -/
structure Place where
  host : String
  port : Int
  user : String
  password : String
  database : String

def Place.values (p : Place) : Fields :=
  [("host", .text p.host), ("port", .int p.port), ("user", .text p.user),
   ("password", .text p.password), ("database", .text p.database)]

def Place.within (p : Place) (c : DatabaseSettings) : DatabaseSettings :=
  { c with host := p.host, port := p.port, user := p.user, password := p.password,
           database := p.database }

def placeVariables : List String :=
  ["sqlgate_db_host", "sqlgate_db_port", "sqlgate_db_user", "sqlgate_db_password",
   "sqlgate_db_database"]

def withoutPlace (environment : Environment) : Environment :=
  environment.filter fun e => !placeVariables.contains (lower e.1)

private theorem inherited?_withoutPlace
    (h : placeVariables.contains ("sqlgate_db_" ++ name) = false) (values more : Fields) :
    Source.inherited? ⟨values, withoutPlace environment, "sqlgate_db_"⟩ name =
      Source.inherited? ⟨more, environment, "sqlgate_db_"⟩ name := by
  have hsame : ∀ e : String × String,
      (!placeVariables.contains (lower e.1) && lower e.1 == "sqlgate_db_" ++ name) =
        (lower e.1 == "sqlgate_db_" ++ name) := by
    intro e
    by_cases he : lower e.1 = "sqlgate_db_" ++ name
    · rw [he, h]
      rfl
    · simp [he]
  simp only [Source.inherited?, withoutPlace, ← List.filter_reverse, List.find?_filter,
    Bool.decide_and, Bool.decide_eq_true, hsame]

def placeNames : List String := ["host", "port", "user", "password", "database"]

private theorem lower_placeNames : ∀ key ∈ placeNames, lower key = key := by
  decide

private theorem get?_values_of_other (p : Place) (hname : placeNames.contains name = false)
    (hvariable : placeVariables.contains ("sqlgate_db_" ++ name) = false) :
    Source.get? ⟨p.values, environment, "sqlgate_db_"⟩ name =
      Source.get? ⟨[], withoutPlace environment, "sqlgate_db_"⟩ name := by
  have hexplicit : Source.explicit? ⟨p.values, environment, "sqlgate_db_"⟩ name = none := by
    refine Option.map_eq_none_iff.mpr (List.find?_eq_none.mpr fun e he hsame => ?_)
    have hkey : e.1 ∈ placeNames := List.mem_map_of_mem (f := Prod.fst) he
    rw [lower_placeNames e.1 hkey, beq_iff_eq] at hsame
    rw [← hsame, List.contains_iff_mem.mpr hkey] at hname
    cases hname
  rw [Source.get?, hexplicit]
  exact (inherited?_withoutPlace hvariable [] p.values).symm

private theorem get?_values (environment : Environment) (p : Place) :
    Source.get? ⟨p.values, environment, "sqlgate_db_"⟩ "host" = some (.text p.host) ∧
      Source.get? ⟨p.values, environment, "sqlgate_db_"⟩ "port" = some (.int p.port) ∧
      Source.get? ⟨p.values, environment, "sqlgate_db_"⟩ "user" = some (.text p.user) ∧
      Source.get? ⟨p.values, environment, "sqlgate_db_"⟩ "password" = some (.text p.password) ∧
      Source.get? ⟨p.values, environment, "sqlgate_db_"⟩ "database" = some (.text p.database) := by
  obtain ⟨hhost, hport, huser, hpassword, hdatabase⟩ : lower "host" = "host" ∧
      lower "port" = "port" ∧ lower "user" = "user" ∧ lower "password" = "password" ∧
      lower "database" = "database" := by decide
  simp [Source.get?, Source.explicit?, Place.values, hhost, hport, huser, hpassword, hdatabase]

private theorem boundedInteger_of_bounds {high low n : Int} (h : low ≤ n ∧ n ≤ high) :
    (boundedInteger [.atMost high, .atLeast low] (.int n)).value? = some n := by
  have hhigh : Bound.admits (.atMost high) (some (compare n high)) = true := by
    simp [Bound.admits, Int.compare_eq_lt]
    omega
  have hlow : Bound.admits (.atLeast low) (some (compare n low)) = true := by
    simp [Bound.admits, Int.compare_eq_gt]
    omega
  simp [boundedInteger, Coercion.integer, Checked.andThen, bounded, Bound.limit, hhigh, hlow,
    Checked.value?]

private theorem readFrom_place {p : Place} {c : DatabaseSettings}
    (hport : 1 ≤ p.port ∧ p.port ≤ 65535)
    (h : ReadFrom ⟨[], withoutPlace environment, "sqlgate_db_"⟩ c) :
    ReadFrom ⟨p.values, environment, "sqlgate_db_"⟩ (p.within c) := by
  have hother : ∀ {α : Type} {name : String} {default : α} {read : Value → Checked α} {a : α},
      (Source.setting ⟨[], withoutPlace environment, "sqlgate_db_"⟩ name default read).value? =
        some a →
      placeNames.contains name = false →
      placeVariables.contains ("sqlgate_db_" ++ name) = false →
      (Source.setting ⟨p.values, environment, "sqlgate_db_"⟩ name default read).value? =
        some a := by
    intro _ _ _ _ _ ha hname hvariable
    rwa [setting_congr (get?_values_of_other p hname hvariable)]
  obtain ⟨hhost, hportGiven, huser, hpassword, hdatabase⟩ := get?_values environment p
  exact {
    host := setting_of_get? hhost _ _
    port := (setting_of_get? hportGiven _ _).trans (boundedInteger_of_bounds hport)
    user := setting_of_get? huser _ _
    password := setting_of_get? hpassword _ _
    database := setting_of_get? hdatabase _ _
    driver := hother h.driver (by decide) (by decide)
    connectionLimit := hother h.connectionLimit (by decide) (by decide)
    acquireTimeout := hother h.acquireTimeout (by decide) (by decide)
    connectTimeout := hother h.connectTimeout (by decide) (by decide)
    statementTimeout := hother h.statementTimeout (by decide) (by decide)
    idleTimeout := hother h.idleTimeout (by decide) (by decide)
    maxRetries := hother h.maxRetries (by decide) (by decide)
    retryDelay := hother h.retryDelay (by decide) (by decide) }

theorem ofValues_place {p : Place} {c : DatabaseSettings} (hport : 1 ≤ p.port ∧ p.port ≤ 65535)
    (h : DatabaseSettings.ofValues [] (withoutPlace environment) = .good c) :
    DatabaseSettings.ofValues p.values environment = .good (p.within c) :=
  ofSource_of_readFrom (readFrom_place hport (readFrom_of_ofSource (congrArg Checked.value? h)))

/-- The place that is meant where none is told. -/
def usualPlace : Place := ⟨"localhost", 3306, "root", "", ""⟩

private theorem inherited?_of_placeVariables
    (h : placeVariables.contains ("sqlgate_db_" ++ name) = true) :
    Source.inherited? ⟨[], withoutPlace environment, "sqlgate_db_"⟩ name = none := by
  refine Option.map_eq_none_iff.mpr (List.find?_eq_none.mpr fun e he hsame => ?_)
  have hkept := (List.mem_filter.mp (List.mem_reverse.mp he)).2
  rw [beq_iff_eq.mp hsame, h] at hkept
  cases hkept

theorem ofValues_withoutPlace {c : DatabaseSettings}
    (h : DatabaseSettings.ofValues [] environment = .good c) :
    DatabaseSettings.ofValues [] (withoutPlace environment) = .good (usualPlace.within c) := by
  have hread : ReadFrom ⟨[], environment, "sqlgate_db_"⟩ c :=
    readFrom_of_ofSource (congrArg Checked.value? h)
  have hplace : ∀ {α : Type} {name : String} {read : Value → Checked α} (default : α),
      placeVariables.contains ("sqlgate_db_" ++ name) = true →
      (Source.setting ⟨[], withoutPlace environment, "sqlgate_db_"⟩ name default read).value? =
        some default := by
    intro _ _ _ _ hvariable
    rw [Source.setting, Source.get?, inherited?_of_placeVariables hvariable]
    rfl
  have hother : ∀ {α : Type} {name : String} {default a : α} {read : Value → Checked α},
      (Source.setting ⟨[], environment, "sqlgate_db_"⟩ name default read).value? = some a →
      placeVariables.contains ("sqlgate_db_" ++ name) = false →
      (Source.setting ⟨[], withoutPlace environment, "sqlgate_db_"⟩ name default read).value? =
        some a := by
    intro _ _ _ _ _ ha hvariable
    rwa [setting_congr (t := ⟨[], environment, "sqlgate_db_"⟩)]
    exact inherited?_withoutPlace hvariable [] []
  refine ofSource_of_readFrom ⟨hplace _ (by decide), hplace _ (by decide), hplace _ (by decide),
    hplace _ (by decide), hplace _ (by decide), ?_, ?_, ?_, ?_, ?_, ?_, ?_, ?_⟩
  · exact hother hread.driver (by decide)
  · exact hother hread.connectionLimit (by decide)
  · exact hother hread.acquireTimeout (by decide)
  · exact hother hread.connectTimeout (by decide)
  · exact hother hread.statementTimeout (by decide)
  · exact hother hread.idleTimeout (by decide)
  · exact hother hread.maxRetries (by decide)
  · exact hother hread.retryDelay (by decide)

/-! ## Clean environments -/

/-- An environment that tells nothing about a database. -/
def IsClean (environment : Environment) : Prop :=
  ∀ e ∈ environment, ¬ "sqlgate_db_".toList <+: (lower e.1).toList

private theorem get?_of_isClean (h : IsClean environment) (name : String) :
    Source.get? ⟨[], environment, "sqlgate_db_"⟩ name = none := by
  refine Option.map_eq_none_iff.mpr (List.find?_eq_none.mpr fun e he hsame => ?_)
  refine h e (List.mem_reverse.mp he) ?_
  rw [beq_iff_eq.mp hsame, String.toList_append]
  exact List.prefix_append _ _

theorem ofValues_of_isClean (h : IsClean environment) :
    DatabaseSettings.ofValues [] environment = DatabaseSettings.ofValues [] [] := by
  have hempty : IsClean [] := nofun
  simp only [DatabaseSettings.ofValues, DatabaseSettings.ofSource, Source.setting,
    get?_of_isClean h, get?_of_isClean hempty]

theorem IsClean.withoutPlace (h : IsClean environment) : IsClean (withoutPlace environment) :=
  fun e he => h e (List.mem_filter.mp he).1

end QueryGateway.Proofs.Settings.Sources
