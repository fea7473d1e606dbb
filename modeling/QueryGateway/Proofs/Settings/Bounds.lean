import QueryGateway.Settings.Database

/-!
What settings that were read are sure to obey. Each field comes from its own reading, so the whole
numbers among them are within their bounds, wherever they come from.
-/

set_option autoImplicit false
set_option relaxedAutoImplicit false

namespace QueryGateway.Proofs.Settings.Bounds

open QueryGateway.Input
open QueryGateway.Number
open QueryGateway.Settings

variable {α β : Type}

/-! ## Readings that are put together -/

theorem value?_map {f : α → β} {a : Checked α} {b : β} :
    (f <$> a).value? = some b ↔ ∃ x, a.value? = some x ∧ f x = b := by
  change (a.map f).value? = some b ↔ _
  cases a <;> simp [Checked.map, Checked.value?]

theorem value?_seq {f : Checked (α → β)} {a : Checked α} {b : β} :
    (f <*> a).value? = some b ↔ ∃ g, f.value? = some g ∧ ∃ x, a.value? = some x ∧ g x = b := by
  change (f.apply a).value? = some b ↔ _
  cases f <;> cases a <;> simp [Checked.apply, Checked.value?]

theorem value?_andThen {a : Checked α} {f : α → Checked β} {b : β} :
    (a.andThen f).value? = some b ↔ ∃ x, a.value? = some x ∧ (f x).value? = some b := by
  cases a <;> simp [Checked.andThen, Checked.value?]

theorem value?_within {step : String} {a : Checked α} : (a.within step).value? = a.value? := by
  cases a <;> rfl

theorem setting_obeys {s : Source} {name : String} {default a : α} {read : Value → Checked α}
    {q : α → Prop} (hdefault : q default) (hread : ∀ v b, (read v).value? = some b → q b)
    (h : (s.setting name default read).value? = some a) : q a := by
  unfold Source.setting at h
  split at h
  · rw [value?_within] at h
    exact hread _ _ h
  · cases h
    exact hdefault

/-- Settings of which a source gives each field. -/
structure ReadFrom (s : Source) (c : DatabaseSettings) : Prop where
  host : (s.setting "host" "localhost" Coercion.text).value? = some c.host
  port : (s.setting "port" 3306 (boundedInteger [.atMost 65535, .atLeast 1])).value? = some c.port
  user : (s.setting "user" "root" Coercion.text).value? = some c.user
  password : (s.setting "password" "" Coercion.text).value? = some c.password
  database : (s.setting "database" "" Coercion.text).value? = some c.database
  driver : (s.setting "drivername" "mysql+pymysql" DatabaseSettings.driverName).value? =
    some c.driver
  connectionLimit : (s.setting "connection_limit" 20
    (boundedInteger [.atMost 1000, .atLeast 1])).value? = some c.connectionLimit
  acquireTimeout : (s.setting "acquire_timeout" (Binary64.ofInt 120)
    (boundedNumber [.above 0])).value? = some c.acquireTimeout
  connectTimeout : (s.setting "connect_timeout" (Binary64.ofInt 30)
    (boundedNumber [.above 0])).value? = some c.connectTimeout
  statementTimeout : (s.setting "timeout" (Binary64.ofInt 120)
    (boundedNumber [.above 0])).value? = some c.statementTimeout
  idleTimeout : (s.setting "idle_timeout" (Binary64.ofInt 60)
    (boundedNumber [.above 0])).value? = some c.idleTimeout
  maxRetries : (s.setting "max_retries" 3 (boundedInteger [.atMost 10, .atLeast 1])).value? =
    some c.maxRetries
  retryDelay : (s.setting "retry_delay" (Binary64.ofInt 1)
    (boundedNumber [.atMost 60, .atLeast 0])).value? = some c.retryDelay

theorem readFrom_of_ofSource {s : Source} {c : DatabaseSettings}
    (h : (DatabaseSettings.ofSource s).value? = some c) : ReadFrom s c := by
  simp only [DatabaseSettings.ofSource, value?_seq, value?_map] at h
  -- The readings come apart from the last field to the first.
  obtain ⟨_, h, _, hretryDelay, rfl⟩ := h
  obtain ⟨_, h, _, hmaxRetries, rfl⟩ := h
  obtain ⟨_, h, _, hidleTimeout, rfl⟩ := h
  obtain ⟨_, h, _, hstatementTimeout, rfl⟩ := h
  obtain ⟨_, h, _, hconnectTimeout, rfl⟩ := h
  obtain ⟨_, h, _, hacquireTimeout, rfl⟩ := h
  obtain ⟨_, h, _, hconnectionLimit, rfl⟩ := h
  obtain ⟨_, h, _, hdriver, rfl⟩ := h
  obtain ⟨_, h, _, hdatabase, rfl⟩ := h
  obtain ⟨_, h, _, hpassword, rfl⟩ := h
  obtain ⟨_, h, _, huser, rfl⟩ := h
  obtain ⟨_, ⟨_, hhost, rfl⟩, _, hport, rfl⟩ := h
  exact ⟨hhost, hport, huser, hpassword, hdatabase, hdriver, hconnectionLimit, hacquireTimeout,
    hconnectTimeout, hstatementTimeout, hidleTimeout, hmaxRetries, hretryDelay⟩

/-! ## Whole numbers -/

private theorem boundedInteger_obeys {high low n : Int} {v : Value}
    (h : (boundedInteger [.atMost high, .atLeast low] v).value? = some n) : low ≤ n ∧ n ≤ high := by
  obtain ⟨m, _, hm⟩ := value?_andThen.mp h
  unfold bounded at hm
  split at hm
  · cases hm
  · rename_i hnone
    cases hm
    have hall := List.find?_eq_none.mp hnone
    have hhigh := hall (.atMost high) (by simp)
    have hlow := hall (.atLeast low) (by simp)
    simp only [Bound.admits, Bound.limit, Bool.not_eq_true', Bool.not_eq_false, Bool.or_eq_true,
      beq_iff_eq, Option.some.injEq, Int.compare_eq_lt, Int.compare_eq_gt,
      Int.compare_eq_eq]
      at hhigh hlow
    constructor <;> omega

/-- The whole numbers of settings within their bounds. -/
structure InBounds (c : DatabaseSettings) : Prop where
  port : 1 ≤ c.port ∧ c.port ≤ 65535
  connectionLimit : 1 ≤ c.connectionLimit ∧ c.connectionLimit ≤ 1000
  maxRetries : 1 ≤ c.maxRetries ∧ c.maxRetries ≤ 10

theorem inBounds_ofSource {s : Source} {c : DatabaseSettings}
    (h : (DatabaseSettings.ofSource s).value? = some c) : InBounds c := by
  have hwhole : ∀ {name : String} {high low default n : Int}, low ≤ default ∧ default ≤ high →
      (s.setting name default (boundedInteger [.atMost high, .atLeast low])).value? = some n →
      low ≤ n ∧ n ≤ high := fun {_ high low _ _} hdefault hn =>
    setting_obeys (q := fun n => low ≤ n ∧ n ≤ high) hdefault
      (fun _ _ => boundedInteger_obeys) hn
  have hread := readFrom_of_ofSource h
  exact ⟨hwhole (by omega) hread.port, hwhole (by omega) hread.connectionLimit,
    hwhole (by omega) hread.maxRetries⟩

end QueryGateway.Proofs.Settings.Bounds
