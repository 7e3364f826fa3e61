/-
# Settings (`shared/src/admin-protocol.ts`, `daemon/src/admin/settings.ts`, `commands.ts`)

What an operator changes while the daemon runs is one row of the key-value table,
a JSON text that is read again, checked again and rounded again for every use.

* `applySettingsPatch` checks and rounds, `configSet` is the command,
* `Whole` says that the deposits are whole hundredths of a percent within the bounds,
* `configRun_memory`: the row behaves like settings kept in memory, over every run.
-/
import LnPay.LnStore
import LnPay.OcOrder
import LnPay.Binary64
import LnPay.JsonText

namespace Binary64

theorem roundHalfEven_sub_le (y : ℚ) : roundHalfEven y - y ≤ 1 / 2 := by
  have h := Int.floor_le y
  unfold roundHalfEven
  split
  · linarith
  · split
    · push_cast
      linarith
    · split
      · linarith
      · push_cast
        linarith

/-- Rounding gains at most one part in `2^53`. -/
theorem roundNearest_sub_le {x : ℚ} (hx : 0 < x) : roundNearest x - x ≤ x / 2 ^ 53 := by
  have hu := pow2_pos (exponent x - 52)
  have hr := roundHalfEven_sub_le (x / pow2 (exponent x - 52))
  have hulp : pow2 (exponent x - 52) = pow2 (exponent x) / 2 ^ 52 := by
    rw [pow2_eq_zpow, pow2_eq_zpow, zpow_sub₀ (by norm_num)]
    norm_cast
  rw [roundNearest, if_neg (not_le.mpr hx)]
  calc roundHalfEven (x / pow2 (exponent x - 52)) * pow2 (exponent x - 52) - x
      = (roundHalfEven (x / pow2 (exponent x - 52)) - x / pow2 (exponent x - 52))
          * pow2 (exponent x - 52) := by
        rw [sub_mul, div_mul_cancel₀ _ hu.ne']
    _ ≤ 1 / 2 * pow2 (exponent x - 52) := by gcongr
    _ = pow2 (exponent x) / 2 ^ 53 := by rw [hulp]; ring
    _ ≤ x / 2 ^ 53 := by
        gcongr
        exact pow2_exponent_le hx

/-- A rounded number is within one part in `2^53`. -/
theorem roundNearest_mem {x : ℚ} (hx : 0 ≤ x) :
    x - x / 2 ^ 53 ≤ roundNearest x ∧ roundNearest x ≤ x + x / 2 ^ 53 := by
  rcases hx.eq_or_lt with rfl | hpos
  · simp [roundNearest]
  · have hlow := sub_roundNearest_le hpos
    have hhigh := roundNearest_sub_le hpos
    constructor
    · linarith
    · linarith

end Binary64

namespace LnPay

/-! ## Settings and patches -/

/-- `DaemonSettings`. -/
structure DaemonSettings where
  ln : LnSettings
  acceptNewOrders : Bool
  deriving DecidableEq

/-- `DEFAULT_SETTINGS`. -/
def defaultSettings : DaemonSettings := ⟨defaultLnSettings, false⟩

/-- `MAX_DEPOSIT_PCT`. -/
def maxDepositPct : ℚ := 20

/-- A value in a section; a number is `none` when it is not finite. -/
inductive SettingValue
  | bool (b : Bool)
  | number (q : Option ℚ)
  | other

/-- A section: its entries, or `none` when it is no object. -/
abbrev SettingsSection := Option (List (String × SettingValue))

/-- A patch: its sections, or `none` when it is no object. -/
abbrev SettingsPatch := Option (List (String × SettingsSection))

/-- `Math.round(v * 100) / 100`. -/
def roundCents (v : ℚ) : ℚ :=
  Binary64.div (Binary64.mathRound (Binary64.mul v 100)) 100

/-- The check of a deposit. -/
def depositPct (key : String) : SettingValue → Except String ℚ
  | .number (some v) =>
    if v < 0 ∨ maxDepositPct < v then .error s!"ln.{key}는 0~20" else .ok (roundCents v)
  | _ => .error s!"ln.{key}는 0~20"

/-- `setLn`. -/
def setLn (target : LnSettings) (key : String) (v : SettingValue) : Except String LnSettings :=
  if key = "autoApprove" then
    match v with
    | .bool b => .ok { target with autoApprove := b }
    | _ => .error "ln.autoApprove는 true/false"
  else if key = "customerDepositPct" then
    (depositPct key v).map fun pct => { target with customerDepositPct := pct }
  else if key = "sponsorDepositPct" then
    (depositPct key v).map fun pct => { target with sponsorDepositPct := pct }
  else .error s!"모르는 설정: ln.{key}"

/-- `setOnchain`. -/
def setOnchain (_ : Bool) (key : String) (v : SettingValue) : Except String Bool :=
  if key ≠ "acceptNewOrders" then .error s!"모르는 설정: onchain.{key}"
  else
    match v with
    | .bool b => .ok b
    | _ => .error "onchain.acceptNewOrders는 true/false"

/-- One section of a patch. -/
def applySection (next : DaemonSettings) (s : String × SettingsSection) :
    Except String DaemonSettings :=
  if s.1 ≠ "ln" ∧ s.1 ≠ "onchain" then .error s!"모르는 설정: {s.1}"
  else
    match s.2 with
    | none => .error s!"{s.1}는 객체여야 한다"
    | some entries =>
      if s.1 = "ln" then
        (entries.foldlM (fun ln e => setLn ln e.1 e.2) next.ln).map fun ln => { next with ln := ln }
      else
        (entries.foldlM (fun accept e => setOnchain accept e.1 e.2) next.acceptNewOrders).map
          fun accept => { next with acceptNewOrders := accept }

/-- `applySettingsPatch`. -/
def applySettingsPatch (current : DaemonSettings) : SettingsPatch → Except String DaemonSettings
  | none => .error "patch는 객체여야 한다"
  | some sections => sections.foldlM applySection current

/-! ## The row -/

/-- JSON, as far as settings go; `parse` is `none` when it throws. -/
structure SettingsJson where
  stringify : DaemonSettings → String
  parse : String → Option SettingsPatch
  parse_empty : parse "" = none
  parse_stringify : ∀ s, parse (stringify s) = some (some
    [("ln", some
      [("autoApprove", .bool s.ln.autoApprove),
        ("customerDepositPct", .number (some s.ln.customerDepositPct)),
        ("sponsorDepositPct", .number (some s.ln.sponsorDepositPct))]),
      ("onchain", some [("acceptNewOrders", .bool s.acceptNewOrders)])])

namespace SettingsJson

/-- The sections of the settings, with what they hold. -/
def sections (s : DaemonSettings) : List (String × List (String × (Bool ⊕ ℚ))) :=
  [("ln", [("autoApprove", .inl s.ln.autoApprove),
      ("customerDepositPct", .inr s.ln.customerDepositPct),
      ("sponsorDepositPct", .inr s.ln.sponsorDepositPct)]),
    ("onchain", [("acceptNewOrders", .inl s.acceptNewOrders)])]

/-- A value that was read. -/
def valueOf : Bool ⊕ ℚ → SettingValue
  | .inl b => .bool b
  | .inr q => .number (some q)

/-- The patch that was read. -/
def patchOf (text : String) : Option SettingsPatch :=
  (JsonCodec.scalar.object.object.parse text).map fun sections =>
    some (sections.map fun s => (s.1, some (s.2.map fun e => (e.1, valueOf e.2))))

theorem patchOf_empty : patchOf "" = none := by
  rw [patchOf, JsonCodec.parse_empty _ rfl, Option.map_none]

theorem patchOf_stringify (s : DaemonSettings) :
    patchOf (JsonCodec.scalar.object.object.stringify (sections s)) = some (some
      [("ln", some
        [("autoApprove", .bool s.ln.autoApprove),
          ("customerDepositPct", .number (some s.ln.customerDepositPct)),
          ("sponsorDepositPct", .number (some s.ln.sponsorDepositPct))]),
        ("onchain", some [("acceptNewOrders", .bool s.acceptNewOrders)])]) := by
  rw [patchOf, JsonCodec.parse_stringify]
  rfl

/-- Objects of objects of truth values and numbers; a number is written exactly. -/
def exact : SettingsJson where
  stringify s := JsonCodec.scalar.object.object.stringify (sections s)
  parse := patchOf
  parse_empty := patchOf_empty
  parse_stringify := patchOf_stringify

end SettingsJson

example : SettingsJson.exact.stringify defaultSettings =
    "\x7b\"ln\":\x7b\"autoApprove\":true,\"customerDepositPct\":0,\"sponsorDepositPct\":0\x7d," ++
      "\"onchain\":\x7b\"acceptNewOrders\":false\x7d\x7d" := by
  decide +kernel

variable (J : SettingsJson)

/-- `loadSettings`. -/
def loadSettings (row : Option String) : DaemonSettings :=
  match given row with
  | none => defaultSettings
  | some raw =>
    match J.parse raw with
    | none => defaultSettings
    | some stored =>
      match applySettingsPatch defaultSettings stored with
      | .ok settings => settings
      | .error _ => defaultSettings

/-- The command `config.set`: the row after it, and the answer. -/
def configSet (row : Option String) (patch : SettingsPatch) :
    Option String × Except String DaemonSettings :=
  match applySettingsPatch (loadSettings J row) patch with
  | .error e => (row, .error e)
  | .ok settings => (some (J.stringify settings), .ok settings)

/-- Some commands, one after the other. -/
def configRun (row : Option String) :
    List SettingsPatch → Option String × List (Except String DaemonSettings)
  | [] => (row, [])
  | patch :: patches =>
    let (row, answer) := configSet J row patch
    let (row, answers) := configRun row patches
    (row, answer :: answers)

/-- The same on settings that are kept in memory. -/
def memoryRun (settings : DaemonSettings) :
    List SettingsPatch → DaemonSettings × List (Except String DaemonSettings)
  | [] => (settings, [])
  | patch :: patches =>
    let answer := applySettingsPatch settings patch
    let (settings, answers) := memoryRun (answer.toOption.getD settings) patches
    (settings, answer :: answers)

/-! ## Whole hundredths -/

/-- A deposit that is so many hundredths, within the bounds. -/
def Cents (q : ℚ) : Prop := ∃ k : ℕ, k ≤ 2000 ∧ q = Binary64.div k 100

/-- Settings whose deposits are whole hundredths. -/
structure Whole (s : DaemonSettings) : Prop where
  customer : Cents s.ln.customerDepositPct
  sponsor : Cents s.ln.sponsorDepositPct

/-- So many hundredths, divided and multiplied back, round to as many. -/
theorem mathRound_hundredths {k : ℕ} (hk : k ≤ 2000) :
    Binary64.mathRound (Binary64.mul (Binary64.div k 100) 100) = k := by
  have hk0 : (0 : ℚ) ≤ k := k.cast_nonneg
  have hk' : (k : ℚ) ≤ 2000 := by exact_mod_cast hk
  obtain ⟨hlow, hhigh⟩ := Binary64.roundNearest_mem (x := (k : ℚ) / 100) (by positivity)
  have hq0 : 0 ≤ Binary64.div k 100 := by
    unfold Binary64.div
    linarith
  obtain ⟨hlow', hhigh'⟩ := Binary64.roundNearest_mem (x := Binary64.div k 100 * 100)
    (by positivity)
  rw [Binary64.mathRound, Int.floor_eq_iff]
  unfold Binary64.mul
  unfold Binary64.div at *
  constructor
  · push_cast
    linarith
  · push_cast
    linarith

/-- A deposit of whole hundredths is within the bounds. -/
theorem Cents.mem {q : ℚ} (h : Cents q) : 0 ≤ q ∧ q ≤ maxDepositPct := by
  obtain ⟨k, hk, rfl⟩ := h
  have hk0 : (0 : ℚ) ≤ k := k.cast_nonneg
  obtain ⟨hlow, hhigh⟩ := Binary64.roundNearest_mem (x := (k : ℚ) / 100) (by positivity)
  unfold maxDepositPct Binary64.div
  constructor
  · linarith
  · rcases hk.lt_or_eq with hlt | rfl
    · have hk' : (k : ℚ) ≤ 1999 := by exact_mod_cast Nat.le_of_lt_succ hlt
      linarith
    · have hexact : Binary64.roundNearest (((2000 : ℕ) : ℚ) / 100) = 20 := by
        norm_num
        decide +kernel
      rw [hexact]

/-- Rounding it again changes nothing. -/
theorem Cents.roundCents_eq {q : ℚ} (h : Cents q) : roundCents q = q := by
  obtain ⟨k, hk, rfl⟩ := h
  rw [roundCents, mathRound_hundredths hk]
  rfl

/-- It is accepted as it is. -/
theorem Cents.depositPct_eq {q : ℚ} (h : Cents q) (key : String) :
    depositPct key (.number (some q)) = .ok q := by
  obtain ⟨hlow, hhigh⟩ := h.mem
  have hbounds : ¬ (q < 0 ∨ maxDepositPct < q) := by
    rintro (hneg | hbig)
    · exact absurd hlow (not_le.mpr hneg)
    · exact absurd hhigh (not_le.mpr hbig)
  rw [depositPct, if_neg hbounds, h.roundCents_eq]

/-- A deposit that was accepted is of whole hundredths. -/
theorem Cents.of_depositPct {key : String} {v : SettingValue} {q : ℚ}
    (h : depositPct key v = .ok q) : Cents q := by
  unfold depositPct at h
  split at h
  next v =>
    split at h
    · cases h
    next hbounds =>
      cases h
      obtain ⟨hlow, hhigh⟩ := not_or.mp hbounds
      have hv0 : 0 ≤ v := not_lt.mp hlow
      have hv : v ≤ 20 := not_lt.mp hhigh
      obtain ⟨hl, hh⟩ := Binary64.roundNearest_mem (x := v * 100) (by positivity)
      have hnonneg : 0 ≤ Binary64.mathRound (Binary64.mul v 100) := by
        rw [Binary64.mathRound, Int.floor_nonneg]
        unfold Binary64.mul
        linarith
      have hle : Binary64.mathRound (Binary64.mul v 100) ≤ 2000 := by
        refine Int.lt_add_one_iff.mp (Int.floor_lt.mpr ?_)
        unfold Binary64.mul
        push_cast
        linarith
      refine ⟨(Binary64.mathRound (Binary64.mul v 100)).toNat, by omega, ?_⟩
      have hcast : (((Binary64.mathRound (Binary64.mul v 100)).toNat : ℕ) : ℚ) =
          Binary64.mathRound (Binary64.mul v 100) := by
        exact_mod_cast Int.toNat_of_nonneg hnonneg
      rw [roundCents, hcast]
  · cases h

theorem whole_default : Whole defaultSettings := by
  have hzero : Cents 0 := ⟨0, Nat.zero_le _, by simp [Binary64.div, Binary64.roundNearest]⟩
  exact ⟨hzero, hzero⟩

/-! ## Patches keep the settings whole -/

/-- An induction over the entries of a section or of a patch. -/
theorem foldlM_keeps {S E : Type} {f : S → E → Except String S} {P : S → Prop}
    (hstep : ∀ s e s', P s → f s e = .ok s' → P s') {s s' : S} {es : List E} (hs : P s)
    (h : es.foldlM f s = .ok s') : P s' := by
  induction es generalizing s with
  | nil =>
    cases h
    exact hs
  | cons e es ih =>
    rw [List.foldlM_cons] at h
    cases hf : f s e with
    | error err =>
      rw [hf] at h
      cases h
    | ok s₁ =>
      rw [hf] at h
      exact ih (hstep s e s₁ hs hf) h

theorem setLn_whole {ln ln' : LnSettings} {key : String} {v : SettingValue}
    (hln : Cents ln.customerDepositPct ∧ Cents ln.sponsorDepositPct)
    (h : setLn ln key v = .ok ln') :
    Cents ln'.customerDepositPct ∧ Cents ln'.sponsorDepositPct := by
  unfold setLn at h
  split at h
  · split at h
    · cases h
      exact hln
    · cases h
  · split at h
    · obtain ⟨pct, hpct, rfl⟩ := Except.map_eq_ok_iff.mp h
      exact ⟨.of_depositPct hpct, hln.2⟩
    · split at h
      · obtain ⟨pct, hpct, rfl⟩ := Except.map_eq_ok_iff.mp h
        exact ⟨hln.1, .of_depositPct hpct⟩
      · cases h

theorem applySection_whole {s s' : DaemonSettings} {e : String × SettingsSection} (hs : Whole s)
    (h : applySection s e = .ok s') : Whole s' := by
  unfold applySection at h
  split at h
  · cases h
  · split at h
    · cases h
    · split at h
      · obtain ⟨ln, hln, rfl⟩ := Except.map_eq_ok_iff.mp h
        have hcents := foldlM_keeps
          (P := fun ln => Cents ln.customerDepositPct ∧ Cents ln.sponsorDepositPct)
          (fun _ _ _ hln h => setLn_whole hln h) ⟨hs.customer, hs.sponsor⟩ hln
        exact ⟨hcents.1, hcents.2⟩
      · obtain ⟨accept, -, rfl⟩ := Except.map_eq_ok_iff.mp h
        exact ⟨hs.customer, hs.sponsor⟩

/-- What an accepted patch makes of whole settings is whole. -/
theorem applySettingsPatch_whole {s s' : DaemonSettings} {patch : SettingsPatch} (hs : Whole s)
    (h : applySettingsPatch s patch = .ok s') : Whole s' := by
  cases patch with
  | none => cases h
  | some sections => exact foldlM_keeps (fun _ _ _ hs h => applySection_whole hs h) hs h

/-- Whatever the row holds, the settings that are read are whole. -/
theorem loadSettings_whole (row : Option String) : Whole (loadSettings J row) := by
  unfold loadSettings
  split
  · exact whole_default
  · split
    · exact whole_default
    · split
      next h => exact applySettingsPatch_whole whole_default h
      · exact whole_default

/-- Whole settings are read as they were saved. -/
theorem loadSettings_stringify {s : DaemonSettings} (hs : Whole s) :
    loadSettings J (some (J.stringify s)) = s := by
  have hne : J.stringify s ≠ "" := by
    intro heq
    have hparse := J.parse_stringify s
    rw [heq, J.parse_empty] at hparse
    cases hparse
  have hgiven : given (some (J.stringify s)) = some (J.stringify s) := by
    simp [given, hne]
  have happly : applySettingsPatch defaultSettings (some
      [("ln", some
        [("autoApprove", .bool s.ln.autoApprove),
          ("customerDepositPct", .number (some s.ln.customerDepositPct)),
          ("sponsorDepositPct", .number (some s.ln.sponsorDepositPct))]),
        ("onchain", some [("acceptNewOrders", .bool s.acceptNewOrders)])]) = .ok s := by
    have hc := hs.customer.depositPct_eq "customerDepositPct"
    have hsp := hs.sponsor.depositPct_eq "sponsorDepositPct"
    simp [applySettingsPatch, applySection, setLn, setOnchain, hc, hsp, Except.map, bind,
      Except.bind, pure, Except.pure]
  unfold loadSettings
  simp only [hgiven, J.parse_stringify, happly]

/-- What one command leaves in the row is read as what it answers, or as before. -/
theorem loadSettings_configSet (row : Option String) (patch : SettingsPatch) :
    (configSet J row patch).2 = applySettingsPatch (loadSettings J row) patch ∧
    loadSettings J (configSet J row patch).1 =
      (applySettingsPatch (loadSettings J row) patch).toOption.getD (loadSettings J row) := by
  unfold configSet
  cases h : applySettingsPatch (loadSettings J row) patch with
  | error e => exact ⟨rfl, rfl⟩
  | ok s =>
    exact ⟨rfl, loadSettings_stringify J (applySettingsPatch_whole (loadSettings_whole J row) h)⟩

theorem configRun_eq (row : Option String) (patches : List SettingsPatch) :
    loadSettings J (configRun J row patches).1 = (memoryRun (loadSettings J row) patches).1 ∧
    (configRun J row patches).2 = (memoryRun (loadSettings J row) patches).2 := by
  induction patches generalizing row with
  | nil => exact ⟨rfl, rfl⟩
  | cons patch patches ih =>
    obtain ⟨hanswer, hrow⟩ := loadSettings_configSet J row patch
    obtain ⟨hread, hanswers⟩ := ih (configSet J row patch).1
    simp only [configRun, memoryRun, hread, hanswers, hrow, hanswer, and_self]

theorem memoryRun_whole {s s' : DaemonSettings} {patches : List SettingsPatch} (hs : Whole s)
    (h : Except.ok s' ∈ (memoryRun s patches).2) : Whole s' := by
  induction patches generalizing s with
  | nil => cases h
  | cons patch patches ih =>
    simp only [memoryRun, List.mem_cons] at h
    rcases h with h | h
    · exact applySettingsPatch_whole hs h.symm
    · refine ih ?_ h
      cases happly : applySettingsPatch s patch with
      | error e => exact hs
      | ok s₁ => exact applySettingsPatch_whole hs happly

/-- The row behaves like settings that are kept in memory: over every run of `config.set`, from
whatever the row held before, the answers are the same and so is what is read at the end.  What is
read, and whatever was answered, has its deposits in whole hundredths of a percent, from 0 to 20. -/
theorem configRun_memory (row : Option String) (patches : List SettingsPatch) :
    loadSettings J (configRun J row patches).1 = (memoryRun (loadSettings J row) patches).1 ∧
    (configRun J row patches).2 = (memoryRun (loadSettings J row) patches).2 ∧
    ∀ s, (s = loadSettings J (configRun J row patches).1 ∨
        Except.ok s ∈ (configRun J row patches).2) →
      ∀ q ∈ [s.ln.customerDepositPct, s.ln.sponsorDepositPct],
        0 ≤ q ∧ q ≤ maxDepositPct ∧ roundCents q = q := by
  obtain ⟨hread, hanswers⟩ := configRun_eq J row patches
  refine ⟨hread, hanswers, ?_⟩
  intro s hs
  have hwhole : Whole s := by
    rcases hs with rfl | hmem
    · exact loadSettings_whole J _
    · rw [hanswers] at hmem
      exact memoryRun_whole (loadSettings_whole J row) hmem
  intro q hq
  have hcents : Cents q := by
    simp only [List.mem_cons, List.not_mem_nil, or_false] at hq
    rcases hq with rfl | rfl
    · exact hwhole.customer
    · exact hwhole.sponsor
  obtain ⟨hlow, hhigh⟩ := hcents.mem
  exact ⟨hlow, hhigh, hcents.roundCents_eq⟩

/-- A deposit is changed, another one is out of bounds, and a third is rounded. -/
def samplePatches : List SettingsPatch :=
  [some [("ln", some [("customerDepositPct", .number (some 7))])],
    some [("ln", some [("sponsorDepositPct", .number (some 21)), ("autoApprove", .bool false)])],
    some [("ln", some [("sponsorDepositPct", .number (some (1 / 3)))]),
      ("onchain", some [("acceptNewOrders", .bool true)])]]

theorem configRun_memory_sample :
    loadSettings .exact (configRun .exact (some "\x7b") samplePatches).1 =
      (memoryRun (loadSettings .exact (some "\x7b")) samplePatches).1 ∧
    (configRun .exact (some "\x7b") samplePatches).2 =
      (memoryRun (loadSettings .exact (some "\x7b")) samplePatches).2 ∧
    ∀ q ∈ [(loadSettings .exact (configRun .exact (some "\x7b") samplePatches).1).ln.customerDepositPct,
      (loadSettings .exact (configRun .exact (some "\x7b") samplePatches).1).ln.sponsorDepositPct],
        0 ≤ q ∧ q ≤ maxDepositPct ∧ roundCents q = q := by
  obtain ⟨hread, hanswers, hcents⟩ := configRun_memory .exact (some "\x7b") samplePatches
  exact ⟨hread, hanswers, hcents _ (.inl rfl)⟩

end LnPay
