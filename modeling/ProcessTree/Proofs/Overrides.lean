-- A configuration layered from variables. Each variable sets a part of its own
-- and no other one; what it may say is a small language, and of those that say
-- something else the first counts, in the order in which they are checked.
import Mathlib
import ProcessTree.Config.Environment
import ProcessTree.Proofs.Text.Numeral

namespace ProcessTree

/-! ## Blanks at both ends -/

namespace Text

/-- A text is an inner one between blanks, and the inner one neither begins nor ends with one. -/
structure Between (text inner : List Char) : Prop where
  split : ∃ front back, text = front ++ inner ++ back ∧ ∀ c ∈ front ++ back, isBlank c = true
  head : ∀ c ∈ inner.head?, isBlank c = false
  last : ∀ c ∈ inner.getLast?, isBlank c = false

theorem dropWhile_of_front {front rest : List Char} (hfront : ∀ c ∈ front, isBlank c = true)
    (hrest : ∀ c ∈ rest.head?, isBlank c = false) : (front ++ rest).dropWhile isBlank = rest := by
  rw [List.dropWhile_append_of_pos hfront]
  cases rest with
  | nil => rfl
  | cons c rest => exact List.dropWhile_cons_of_neg (by simp [hrest c rfl])

theorem head_dropWhile {chars : List Char} :
    ∀ c ∈ (chars.dropWhile isBlank).head?, isBlank c = false := by
  intro c hc
  have hnot := List.head?_dropWhile_not isBlank chars
  rw [Option.mem_def.mp hc] at hnot
  simpa using hnot

theorem between_trimmed (text : List Char) : Between text (trimmed text) := by
  have hfront : text = text.takeWhile isBlank ++ text.dropWhile isBlank :=
    List.takeWhile_append_dropWhile.symm
  have hback : text.dropWhile isBlank =
      trimmed text ++ ((text.dropWhile isBlank).reverse.takeWhile isBlank).reverse := by
    unfold trimmed
    rw [← List.reverse_append, List.takeWhile_append_dropWhile, List.reverse_reverse]
  refine ⟨⟨text.takeWhile isBlank,
    ((text.dropWhile isBlank).reverse.takeWhile isBlank).reverse, ?_, ?_⟩, ?_, ?_⟩
  · rw [List.append_assoc, ← hback]
    exact hfront
  · intro c hc
    rcases List.mem_append.mp hc with hc | hc
    · exact List.mem_takeWhile_imp hc
    · exact List.mem_takeWhile_imp (List.mem_reverse.mp hc)
  · intro c hc
    refine @head_dropWhile text c ?_
    rw [hback, List.head?_append, Option.mem_def.mp hc]
    rfl
  · intro c hc
    unfold trimmed at hc
    rw [List.getLast?_reverse] at hc
    exact head_dropWhile c hc

/-- Trimming takes off the blanks at both ends and nothing else. -/
theorem trimmed_eq_iff {text inner : List Char} : trimmed text = inner ↔ Between text inner := by
  constructor
  · rintro rfl
    exact between_trimmed text
  · rintro ⟨⟨front, back, rfl, hblank⟩, hhead, hlast⟩
    rw [List.forall_mem_append] at hblank
    obtain ⟨hfront, hback⟩ := hblank
    unfold trimmed
    rw [List.append_assoc]
    by_cases hinner : inner = []
    · subst hinner
      rw [List.nil_append, List.dropWhile_append_of_pos hfront, List.dropWhile_eq_nil_iff.mpr hback]
      rfl
    · have hfirst : ∀ c ∈ (inner ++ back).head?, isBlank c = false := by
        rw [List.head?_append_of_ne_nil _ hinner]
        exact hhead
      have hfinal : ∀ c ∈ inner.reverse.head?, isBlank c = false := by
        rw [List.head?_reverse]
        exact hlast
      rw [dropWhile_of_front hfront hfirst, List.reverse_append,
        dropWhile_of_front (fun c hc => hback c (List.mem_reverse.mp hc)) hfinal,
        List.reverse_reverse]

end Text

namespace Overrides

/-! ## What a variable may say -/

/-- A decimal number between blanks. -/
def SaysNumber (text : String) (n : Nat) : Prop :=
  ∃ inner, Text.Between text.toList inner ∧ Numeral.Decimal inner n

/-- A number of 32 bits. -/
def SaysWord (text : String) (word : UInt32) : Prop := SaysNumber text word.toNat

/-- A time in milliseconds, of which there are at most 64 bits. -/
def SaysTime (text : String) (time : Duration) : Prop :=
  ∃ millis : UInt64, SaysNumber text millis.toNat ∧
    time.secs.toNat * 1000000000 + time.nanos.toNat = millis.toNat * 1000000

/-- The name of an identity between blanks. -/
inductive SaysIdentity (text : String) : JobIdentity → Prop
  | mapRoot (name : Text.Between text.toList "map-root".toList) : SaysIdentity text .mapRoot
  | unmapped (name : Text.Between text.toList "unmapped".toList) : SaysIdentity text .unmapped
  | shared (name : Text.Between text.toList "shared".toList) : SaysIdentity text .shared

/-- The name of a way to pass descriptors, and nothing else. -/
inductive SaysPassing : String → FdPassing → Prop
  | fixed : SaysPassing "fixed" .fixed
  | numbered : SaysPassing "numbered" .numbered

/-- A truth value in one of three spellings, and nothing else. -/
inductive SaysTruth (text : String) : Bool → Prop
  | yes (spelled : text = "1" ∨ text = "true" ∨ text = "yes") : SaysTruth text true
  | no (spelled : text = "0" ∨ text = "false" ∨ text = "no") : SaysTruth text false

/-- What a function reads from a text is what the text says. -/
def Reads {α : Type} (read : String → Option α) (Says : String → α → Prop) : Prop :=
  ∀ text a, read text = some a ↔ Says text a

theorem read?_trimmed_eq_some_iff {text : String} {most n : Nat} :
    Numeral.read? 10 most (Text.trimmed text.toList) = some n ↔ SaysNumber text n ∧ n ≤ most := by
  rw [Numeral.read?_eq_some_iff_decimal]
  refine and_congr_left fun _ => ?_
  unfold SaysNumber
  simp only [← Text.trimmed_eq_iff, exists_eq_left']

theorem reads_word : Reads word32? SaysWord := by
  intro text word
  unfold word32? SaysWord
  simp only [Option.map_eq_some_iff, read?_trimmed_eq_some_iff, Numeral.word32]
  constructor
  · rintro ⟨n, ⟨hmeans, hle⟩, rfl⟩
    rwa [UInt32.toNat_ofNat_of_lt' (by simpa [UInt32.size] using Nat.lt_succ_of_le hle)]
  · intro hmeans
    exact ⟨word.toNat, ⟨hmeans, Nat.le_of_lt_succ word.toNat_lt⟩, UInt32.ofNat_toNat⟩

/-- A time has one form in seconds and nanoseconds. -/
theorem ofMillis_eq_iff {millis : UInt64} {time : Duration} :
    .ofMillis millis = time ↔
      time.secs.toNat * 1000000000 + time.nanos.toNat = millis.toNat * 1000000 := by
  have hsecs : (Duration.ofMillis millis).secs.toNat = millis.toNat / 1000 := by
    have := millis.toNat_lt
    unfold Duration.ofMillis
    simp only [UInt64.toNat_ofNat']
    omega
  have hnanos : (Duration.ofMillis millis).nanos.toNat = millis.toNat % 1000 * 1000000 := by
    unfold Duration.ofMillis
    simp only [UInt32.toNat_ofNat']
    omega
  constructor
  · rintro rfl
    rw [hsecs, hnanos]
    omega
  · intro hsum
    have hlt := time.nanos_lt
    have hsecs' : (Duration.ofMillis millis).secs = time.secs := by
      apply UInt64.toNat.inj
      omega
    have hnanos' : (Duration.ofMillis millis).nanos = time.nanos := by
      apply UInt32.toNat.inj
      omega
    obtain ⟨secs, nanos, hmost⟩ := time
    unfold Duration.ofMillis at hsecs' hnanos' ⊢
    simp only [Duration.mk.injEq]
    exact ⟨hsecs', hnanos'⟩

theorem reads_time : Reads millis? SaysTime := by
  intro text time
  unfold millis? SaysTime
  simp only [Option.map_eq_some_iff, read?_trimmed_eq_some_iff, Numeral.word64, ofMillis_eq_iff]
  constructor
  · rintro ⟨n, ⟨hmeans, hle⟩, hsum⟩
    have hn : (UInt64.ofNat n).toNat = n :=
      UInt64.toNat_ofNat_of_lt' (by simpa [UInt64.size] using Nat.lt_succ_of_le hle)
    refine ⟨.ofNat n, ?_, hsum⟩
    rwa [hn]
  · rintro ⟨millis, hmeans, hsum⟩
    refine ⟨millis.toNat, ⟨hmeans, Nat.le_of_lt_succ millis.toNat_lt⟩, ?_⟩
    rwa [UInt64.ofNat_toNat]

theorem reads_identity : Reads identity? SaysIdentity := by
  intro text identity
  have hname (chars : List Char) (i : JobIdentity) :
      JobIdentity.ofName? (String.ofList chars) = some i ↔ chars = i.name.toList := by
    constructor
    · intro h
      have hsome := List.find?_some h
      rw [beq_iff_eq] at hsome
      rw [hsome, String.toList_ofList]
    · rintro rfl
      rw [String.ofList_toList]
      cases i <;> rfl
  unfold identity?
  rw [hname, Text.trimmed_eq_iff]
  constructor
  · intro h
    cases identity with
    | mapRoot => exact .mapRoot h
    | unmapped => exact .unmapped h
    | shared => exact .shared h
  · intro h
    cases h with
    | mapRoot name | unmapped name | shared name => exact name

theorem reads_passing : Reads FdPassing.ofName? SaysPassing := by
  intro text passing
  constructor
  · intro h
    have hsome := List.find?_some h
    rw [beq_iff_eq] at hsome
    subst hsome
    cases passing with
    | fixed => exact .fixed
    | numbered => exact .numbered
  · intro h
    cases h <;> rfl

theorem reads_truth : Reads bool? SaysTruth := by
  intro text truth
  have hyes : text ∈ ["1", "true", "yes"] ↔ text = "1" ∨ text = "true" ∨ text = "yes" := by simp
  have hno : text ∈ ["0", "false", "no"] ↔ text = "0" ∨ text = "false" ∨ text = "no" := by simp
  unfold bool?
  constructor
  · intro h
    split at h
    · cases h
      exact .yes (hyes.mp ‹_›)
    · split at h
      · cases h
        exact .no (hno.mp ‹_›)
      · cases h
  · intro h
    cases h with
    | yes spelled => rw [if_pos (hyes.mpr spelled)]
    | no spelled =>
      rw [if_neg, if_pos (hno.mpr spelled)]
      rcases spelled with rfl | rfl | rfl <;> decide

/-! ## The parts of a configuration -/

/-- A part is what its variable says, and the default where that is not set. -/
inductive Sets {α : Type} (Says : String → α → Prop) (lookup : Lookup) (key : String)
    (default : α) : α → Prop
  | unset (absent : lookup key = none) : Sets Says lookup key default default
  | set {text : String} {a : α} (given : lookup key = some text) (means : Says text a) :
      Sets Says lookup key default a

/-- A map is the default with one line behind it, for the ids from 1 up, where two variables say
which ids of the host these are and how many. -/
inductive Extends (lookup : Lookup) (startKey lengthKey : String) (default : IdMap) : IdMap → Prop
  | unset (noStart : lookup startKey = none) (noLength : lookup lengthKey = none) :
      Extends lookup startKey lengthKey default default
  | set {startText lengthText : String} {start length : UInt32}
      (givenStart : lookup startKey = some startText) (meansStart : SaysWord startText start)
      (givenLength : lookup lengthKey = some lengthText)
      (meansLength : SaysWord lengthText length) :
      Extends lookup startKey lengthKey default (default ++ [⟨1, start, length⟩])

/-- Each part of a configuration is that of the defaults or what its own variables say. -/
structure Layered (lookup : Lookup) (default c : Config) : Prop where
  executable : c.executable = default.executable
  workerNamespaces : c.workerNamespaces = default.workerNamespaces
  uidMap : Extends lookup "WARREN_UID_START" "WARREN_UID_LENGTH" default.uidMap c.uidMap
  gidMap : Extends lookup "WARREN_GID_START" "WARREN_GID_LENGTH" default.gidMap c.gidMap
  jobIdentity : Sets SaysIdentity lookup "WARREN_JOB_IDENTITY" default.jobIdentity c.jobIdentity
  fdPassing : Sets SaysPassing lookup "WARREN_FD_PASSING" default.fdPassing c.fdPassing
  startTimeout : Sets SaysTime lookup "WARREN_START_TIMEOUT_MS" default.startTimeout c.startTimeout
  shutdownTimeout :
    Sets SaysTime lookup "WARREN_SHUTDOWN_TIMEOUT_MS" default.shutdownTimeout c.shutdownTimeout
  killGrace : Sets SaysTime lookup "WARREN_KILL_GRACE_MS" default.killGrace c.killGrace
  dieWithParent :
    Sets SaysTruth lookup "WARREN_DIE_WITH_PARENT" default.dieWithParent c.dieWithParent

/-- The parts of a configuration. -/
inductive Part where
  | executable
  | workerNamespaces
  | uidMap
  | gidMap
  | jobIdentity
  | fdPassing
  | startTimeout
  | shutdownTimeout
  | killGrace
  | dieWithParent

/-- The variables that set a part. -/
def Part.variables : Part → List String
  | .executable | .workerNamespaces => []
  | .uidMap => ["WARREN_UID_START", "WARREN_UID_LENGTH"]
  | .gidMap => ["WARREN_GID_START", "WARREN_GID_LENGTH"]
  | .jobIdentity => ["WARREN_JOB_IDENTITY"]
  | .fdPassing => ["WARREN_FD_PASSING"]
  | .startTimeout => ["WARREN_START_TIMEOUT_MS"]
  | .shutdownTimeout => ["WARREN_SHUTDOWN_TIMEOUT_MS"]
  | .killGrace => ["WARREN_KILL_GRACE_MS"]
  | .dieWithParent => ["WARREN_DIE_WITH_PARENT"]

/-- Two configurations have a part in common. -/
def Part.Same (c c' : Config) : Part → Prop
  | .executable => c.executable = c'.executable
  | .workerNamespaces => c.workerNamespaces = c'.workerNamespaces
  | .uidMap => c.uidMap = c'.uidMap
  | .gidMap => c.gidMap = c'.gidMap
  | .jobIdentity => c.jobIdentity = c'.jobIdentity
  | .fdPassing => c.fdPassing = c'.fdPassing
  | .startTimeout => c.startTimeout = c'.startTimeout
  | .shutdownTimeout => c.shutdownTimeout = c'.shutdownTimeout
  | .killGrace => c.killGrace = c'.killGrace
  | .dieWithParent => c.dieWithParent = c'.dieWithParent

/-! ## One variable -/

section Value

variable {α : Type} {read : String → Option α} {Says : String → α → Prop} {lookup lookup' : Lookup}
  {key : String}

/-- A text that says something. -/
def Valid (Says : String → α → Prop) (text : String) : Prop := ∃ a, Says text a

theorem value_eq_ok_none_iff : value read lookup key = .ok none ↔ lookup key = none := by
  unfold value
  cases lookup key with
  | none => simp
  | some text => cases hmeans : read text <;> simp [hmeans]

theorem value_eq_ok_some_iff (hread : Reads read Says) {a : α} :
    value read lookup key = .ok (some a) ↔ ∃ text, lookup key = some text ∧ Says text a := by
  simp only [← hread _ _]
  unfold value
  cases lookup key with
  | none => simp
  | some text => cases hmeans : read text <;> simp [hmeans]

theorem value_eq_error_iff (hread : Reads read Says)
    {e : ConfigError} :
    value read lookup key = .error e ↔
      ∃ text, lookup key = some text ∧ ¬ Valid Says text ∧ .invalidValue key text = e := by
  unfold Valid
  simp only [← hread _ _]
  unfold value
  cases lookup key with
  | none => simp
  | some text => cases hmeans : read text <;> simp [hmeans]

/-- A variable that could be read gives nothing only where it is not set. -/
theorem eq_none_iff_of_value {given : Option α} (h : value read lookup key = .ok given) :
    given = none ↔ lookup key = none := by
  rw [← @value_eq_ok_none_iff α read, h, Except.ok.injEq]

/-- What a variable gives depends on this variable only. -/
theorem value_congr (hkey : lookup key = lookup' key) :
    value read lookup key = value read lookup' key := by
  unfold value
  rw [hkey]

theorem sets_iff (hread : Reads read Says) {default a : α} :
    Sets Says lookup key default a ↔
      ∃ given, value read lookup key = .ok given ∧ given.getD default = a := by
  constructor
  · intro h
    cases h with
    | unset absent => exact ⟨none, value_eq_ok_none_iff.mpr absent, rfl⟩
    | set given means =>
      exact ⟨some a, (value_eq_ok_some_iff hread).mpr ⟨_, given, means⟩, rfl⟩
  · rintro ⟨given, hvalue, rfl⟩
    cases given with
    | none => exact .unset (value_eq_ok_none_iff.mp hvalue)
    | some a =>
      obtain ⟨text, hgiven, hmeans⟩ := (value_eq_ok_some_iff hread).mp hvalue
      exact .set hgiven hmeans

theorem Sets.unique (hread : Reads read Says) {default a b : α}
    (h : Sets Says lookup key default a) (h' : Sets Says lookup' key default b)
    (hkey : lookup key = lookup' key) : a = b := by
  obtain ⟨given, hvalue, rfl⟩ := (sets_iff hread).mp h
  obtain ⟨given', hvalue', rfl⟩ := (sets_iff hread).mp h'
  rw [value_congr hkey, hvalue'] at hvalue
  cases hvalue
  rfl

end Value

/-! ## Two variables that belong together -/

section Range

variable {lookup lookup' : Lookup} {startKey lengthKey : String} {default m m' : IdMap}

/-- The range that two values make together. -/
def joined (startKey lengthKey : String) :
    Option UInt32 → Option UInt32 → Except ConfigError (Option IdMapping)
  | none, none => .ok none
  | some start, some length => .ok (some ⟨1, start, length⟩)
  | some _, none => .error (.incomplete startKey lengthKey)
  | none, some _ => .error (.incomplete lengthKey startKey)

theorem range_eq_bind :
    range lookup startKey lengthKey =
      value word32? lookup startKey >>= fun start =>
        value word32? lookup lengthKey >>= fun length =>
          joined startKey lengthKey start length := by
  unfold range
  cases value word32? lookup startKey with
  | error e => rfl
  | ok start =>
    cases value word32? lookup lengthKey with
    | error e => rfl
    | ok length => cases start <;> cases length <;> rfl

theorem range_congr (hstart : lookup startKey = lookup' startKey)
    (hlength : lookup lengthKey = lookup' lengthKey) :
    range lookup startKey lengthKey = range lookup' startKey lengthKey := by
  rw [range_eq_bind, range_eq_bind, value_congr hstart, value_congr hlength]

theorem extends_iff :
    Extends lookup startKey lengthKey default m ↔
      ∃ given, range lookup startKey lengthKey = .ok given ∧ default ++ given.toList = m := by
  simp only [range_eq_bind, bind_eq_ok_iff]
  constructor
  · intro h
    cases h with
    | unset noStart noLength =>
      exact ⟨none, ⟨none, value_eq_ok_none_iff.mpr noStart, none,
        value_eq_ok_none_iff.mpr noLength, rfl⟩, List.append_nil _⟩
    | set givenStart meansStart givenLength meansLength =>
      have hstart := (value_eq_ok_some_iff reads_word).mpr ⟨_, givenStart, meansStart⟩
      have hlength := (value_eq_ok_some_iff reads_word).mpr ⟨_, givenLength, meansLength⟩
      exact ⟨some _, ⟨some _, hstart, some _, hlength, rfl⟩, rfl⟩
  · rintro ⟨given, ⟨start, hstart, length, hlength, hjoined⟩, rfl⟩
    cases start with
    | none =>
      cases length with
      | none =>
        cases hjoined
        rw [Option.toList_none, List.append_nil]
        exact .unset (value_eq_ok_none_iff.mp hstart) (value_eq_ok_none_iff.mp hlength)
      | some length => cases hjoined
    | some start =>
      cases length with
      | none => cases hjoined
      | some length =>
        cases hjoined
        obtain ⟨_, hgivenStart, hmeansStart⟩ := (value_eq_ok_some_iff reads_word).mp hstart
        obtain ⟨_, hgivenLength, hmeansLength⟩ := (value_eq_ok_some_iff reads_word).mp hlength
        exact .set hgivenStart hmeansStart hgivenLength hmeansLength

theorem Extends.unique (h : Extends lookup startKey lengthKey default m)
    (h' : Extends lookup' startKey lengthKey default m')
    (hstart : lookup startKey = lookup' startKey)
    (hlength : lookup lengthKey = lookup' lengthKey) : m = m' := by
  obtain ⟨given, hrange, rfl⟩ := extends_iff.mp h
  obtain ⟨given', hrange', rfl⟩ := extends_iff.mp h'
  rw [range_congr hstart hlength, hrange'] at hrange
  cases hrange
  rfl

end Range

/-! ## The checks, in their order -/

/-- A check of what the variables say. -/
inductive Check where
  /-- A variable that is set says something valid. -/
  | value (key : String) (valid : String → Prop)
  /-- Of two variables both are set, or neither. -/
  | pair (startKey lengthKey : String)

/-- What a check asks for. -/
def Check.Passes (lookup : Lookup) : Check → Prop
  | .value key valid => ∀ text, lookup key = some text → valid text
  | .pair startKey lengthKey => lookup startKey = none ↔ lookup lengthKey = none

/-- A check that fails, with its error. An error carries the text as it was given. -/
inductive Check.Fails (lookup : Lookup) : Check → ConfigError → Prop
  | value {key text : String} {valid : String → Prop} (given : lookup key = some text)
      (invalid : ¬ valid text) : Fails lookup (.value key valid) (.invalidValue key text)
  | length {startKey lengthKey text : String} (given : lookup startKey = some text)
      (missing : lookup lengthKey = none) :
      Fails lookup (.pair startKey lengthKey) (.incomplete startKey lengthKey)
  | start {startKey lengthKey text : String} (given : lookup lengthKey = some text)
      (missing : lookup startKey = none) :
      Fails lookup (.pair startKey lengthKey) (.incomplete lengthKey startKey)

/-- The first check of a list that fails, with its error. -/
inductive FirstFailure (lookup : Lookup) : List Check → ConfigError → Prop
  | here {check : Check} {checks : List Check} {e : ConfigError} (fails : check.Fails lookup e) :
      FirstFailure lookup (check :: checks) e
  | later {check : Check} {checks : List Check} {e : ConfigError} (passes : check.Passes lookup)
      (first : FirstFailure lookup checks e) : FirstFailure lookup (check :: checks) e

/-- The checks of a range: of both variables, and then of the two together. -/
def rangeChecks (startKey lengthKey : String) : List Check :=
  [.value startKey (Valid SaysWord), .value lengthKey (Valid SaysWord), .pair startKey lengthKey]

/-- All checks. -/
def checks : List Check :=
  rangeChecks "WARREN_UID_START" "WARREN_UID_LENGTH" ++
    rangeChecks "WARREN_GID_START" "WARREN_GID_LENGTH" ++
    [.value "WARREN_JOB_IDENTITY" (Valid SaysIdentity),
      .value "WARREN_FD_PASSING" (Valid SaysPassing),
      .value "WARREN_START_TIMEOUT_MS" (Valid SaysTime),
      .value "WARREN_SHUTDOWN_TIMEOUT_MS" (Valid SaysTime),
      .value "WARREN_KILL_GRACE_MS" (Valid SaysTime),
      .value "WARREN_DIE_WITH_PARENT" (Valid SaysTruth)]

section Checks

variable {α β : Type} {lookup : Lookup} {before after : List Check} {e : ConfigError}

theorem firstFailure_nil : ¬ FirstFailure lookup [] e := by
  intro h
  cases h

theorem firstFailure_singleton {check : Check} :
    FirstFailure lookup [check] e ↔ check.Fails lookup e := by
  constructor
  · intro h
    cases h with
    | here fails => exact fails
    | later passes first => exact absurd first firstFailure_nil
  · exact .here

theorem firstFailure_append :
    FirstFailure lookup (before ++ after) e ↔
      FirstFailure lookup before e ∨
        (∀ check ∈ before, check.Passes lookup) ∧ FirstFailure lookup after e := by
  induction before with
  | nil => simp [firstFailure_nil]
  | cons check before ih =>
    rw [List.cons_append, List.forall_mem_cons]
    constructor
    · intro h
      cases h with
      | here fails => exact .inl (.here fails)
      | later passes first =>
        rcases ih.mp first with hbefore | ⟨hpass, hafter⟩
        · exact .inl (.later passes hbefore)
        · exact .inr ⟨⟨passes, hpass⟩, hafter⟩
    · rintro (h | ⟨⟨hcheck, hpass⟩, hafter⟩)
      · cases h with
        | here fails => exact .here fails
        | later passes first => exact .later passes (ih.mpr (.inl first))
      · exact .later hcheck (ih.mpr (.inr ⟨hpass, hafter⟩))

/-- A reading that makes these checks one after the other and stops at the first that fails. -/
structure Makes (lookup : Lookup) (checks : List Check) (x : Except ConfigError α) : Prop where
  ok : (∃ a, x = .ok a) ↔ ∀ check ∈ checks, check.Passes lookup
  error : ∀ e, x = .error e ↔ FirstFailure lookup checks e

theorem makes_pure (a : α) : Makes lookup [] (pure a : Except ConfigError α) where
  ok := ⟨fun _ _ hmem => absurd hmem List.not_mem_nil, fun _ => ⟨a, rfl⟩⟩
  error e := ⟨fun h => absurd h (by simp [pure, Except.pure]), fun h => absurd h firstFailure_nil⟩

theorem Makes.bind {x : Except ConfigError α} {f : α → Except ConfigError β}
    (hx : Makes lookup before x) (hf : ∀ a, x = .ok a → Makes lookup after (f a)) :
    Makes lookup (before ++ after) (x >>= f) := by
  cases hresult : x with
  | error e =>
    -- A check of the front has failed, so those behind it are not made.
    have hstop : (.error e : Except ConfigError α) >>= f = .error e := rfl
    have hfail : ¬ ∀ check ∈ before, check.Passes lookup := by
      intro hpass
      obtain ⟨a, ha⟩ := hx.ok.mpr hpass
      rw [ha] at hresult
      cases hresult
    constructor
    · rw [List.forall_mem_append, hstop]
      simp [hfail]
    · intro e'
      rw [firstFailure_append, ← hx.error, hresult, hstop]
      simp [hfail]
  | ok a =>
    -- The front has passed, and a list that has passed has no first failure.
    have hpass := hx.ok.mp ⟨a, hresult⟩
    have hnot : ∀ e', ¬ FirstFailure lookup before e' := by
      intro e' h
      rw [← hx.error, hresult] at h
      cases h
    have hfa := hf a hresult
    constructor
    · rw [List.forall_mem_append]
      exact hfa.ok.trans ⟨fun h => ⟨hpass, h⟩, fun h => h.2⟩
    · intro e'
      rw [firstFailure_append]
      exact (hfa.error e').trans
        ⟨fun h => .inr ⟨hpass, h⟩, fun h => h.elim (fun h => absurd h (hnot e')) fun h => h.2⟩

theorem makes_value {read : String → Option α} {Says : String → α → Prop} {key : String}
    (hread : Reads read Says) :
    Makes lookup [.value key (Valid Says)] (value read lookup key) := by
  constructor
  · rw [List.forall_mem_singleton]
    constructor
    · rintro ⟨given, hgiven⟩ text htext
      cases given with
      | none =>
        rw [value_eq_ok_none_iff, htext] at hgiven
        cases hgiven
      | some a =>
        obtain ⟨text', htext', hmeans⟩ := (value_eq_ok_some_iff hread).mp hgiven
        rw [htext] at htext'
        cases htext'
        exact ⟨a, hmeans⟩
    · intro hpass
      cases hlookup : lookup key with
      | none => exact ⟨none, value_eq_ok_none_iff.mpr hlookup⟩
      | some text =>
        obtain ⟨a, hmeans⟩ := hpass text hlookup
        exact ⟨some a, (value_eq_ok_some_iff hread).mpr ⟨text, hlookup, hmeans⟩⟩
  · intro e
    rw [firstFailure_singleton, value_eq_error_iff hread]
    constructor
    · rintro ⟨text, hgiven, hinvalid, rfl⟩
      exact .value hgiven hinvalid
    · intro h
      cases h with
      | value given invalid => exact ⟨_, given, invalid, rfl⟩

theorem fails_pair_iff {startKey lengthKey : String} :
    (Check.pair startKey lengthKey).Fails lookup e ↔
      lookup startKey ≠ none ∧ lookup lengthKey = none ∧ .incomplete startKey lengthKey = e ∨
        lookup startKey = none ∧ lookup lengthKey ≠ none ∧ .incomplete lengthKey startKey = e := by
  constructor
  · intro h
    cases h with
    | length given missing => exact .inl ⟨by simp [given], missing, rfl⟩
    | start given missing => exact .inr ⟨missing, by simp [given], rfl⟩
  · rintro (⟨hstart, hlength, rfl⟩ | ⟨hstart, hlength, rfl⟩)
    · obtain ⟨text, htext⟩ := Option.ne_none_iff_exists'.mp hstart
      exact .length htext hlength
    · obtain ⟨text, htext⟩ := Option.ne_none_iff_exists'.mp hlength
      exact .start htext hstart

/-- Of two values that were read only what is there decides whether they make a range. -/
theorem makes_joined {startKey lengthKey : String} {start length : Option UInt32}
    (hstart : value word32? lookup startKey = .ok start)
    (hlength : value word32? lookup lengthKey = .ok length) :
    Makes lookup [.pair startKey lengthKey] (joined startKey lengthKey start length) := by
  have hstart := eq_none_iff_of_value hstart
  have hlength := eq_none_iff_of_value hlength
  constructor
  · rw [List.forall_mem_singleton]
    simp only [Check.Passes, ← hstart, ← hlength]
    cases start <;> cases length <;> simp [joined]
  · intro e
    rw [firstFailure_singleton, fails_pair_iff, ne_eq, ne_eq, ← hstart, ← hlength]
    cases start <;> cases length <;> simp [joined]

theorem makes_range {startKey lengthKey : String} :
    Makes lookup (rangeChecks startKey lengthKey) (range lookup startKey lengthKey) := by
  rw [range_eq_bind]
  exact (makes_value reads_word).bind fun _ hstart =>
    (makes_value reads_word).bind fun _ hlength => makes_joined hstart hlength

theorem makes_ofLookup : Makes lookup checks (ofLookup lookup) := by
  unfold ofLookup
  exact makes_range.bind fun _ _ => makes_range.bind fun _ _ =>
    (makes_value reads_identity).bind fun _ _ => (makes_value reads_passing).bind fun _ _ =>
      (makes_value reads_time).bind fun _ _ => (makes_value reads_time).bind fun _ _ =>
        (makes_value reads_time).bind fun _ _ => (makes_value reads_truth).bind fun _ _ =>
          makes_pure _

end Checks

/-! ## All variables -/

section Layers

variable {lookup lookup' : Lookup} {user group : UInt32} {c c' : Config}

theorem ofLookup_eq_ok_iff {o : Overrides} :
    ofLookup lookup = .ok o ↔
      range lookup "WARREN_UID_START" "WARREN_UID_LENGTH" = .ok o.uidRange ∧
      range lookup "WARREN_GID_START" "WARREN_GID_LENGTH" = .ok o.gidRange ∧
      value identity? lookup "WARREN_JOB_IDENTITY" = .ok o.jobIdentity ∧
      value FdPassing.ofName? lookup "WARREN_FD_PASSING" = .ok o.fdPassing ∧
      value millis? lookup "WARREN_START_TIMEOUT_MS" = .ok o.startTimeout ∧
      value millis? lookup "WARREN_SHUTDOWN_TIMEOUT_MS" = .ok o.shutdownTimeout ∧
      value millis? lookup "WARREN_KILL_GRACE_MS" = .ok o.killGrace ∧
      value bool? lookup "WARREN_DIE_WITH_PARENT" = .ok o.dieWithParent := by
  unfold ofLookup
  simp only [bind_eq_ok_iff, pure, Except.pure, Except.ok.injEq]
  constructor
  · rintro ⟨_, h₁, _, h₂, _, h₃, _, h₄, _, h₅, _, h₆, _, h₇, _, h₈, rfl⟩
    exact ⟨h₁, h₂, h₃, h₄, h₅, h₆, h₇, h₈⟩
  · rintro ⟨h₁, h₂, h₃, h₄, h₅, h₆, h₇, h₈⟩
    exact ⟨_, h₁, _, h₂, _, h₃, _, h₄, _, h₅, _, h₆, _, h₇, _, h₈, rfl⟩

theorem layered_iff :
    Config.ofLookup user group lookup = .ok c ↔ Layered lookup (.initial user group) c := by
  unfold Config.ofLookup
  simp only [map_eq_ok_iff, ofLookup_eq_ok_iff]
  constructor
  · rintro ⟨o, ⟨huid, hgid, hidentity, hpassing, hstart, hshutdown, hgrace, hdie⟩, rfl⟩
    exact {
      executable := rfl
      workerNamespaces := rfl
      uidMap := extends_iff.mpr ⟨_, huid, rfl⟩
      gidMap := extends_iff.mpr ⟨_, hgid, rfl⟩
      jobIdentity := (sets_iff reads_identity).mpr ⟨_, hidentity, rfl⟩
      fdPassing := (sets_iff reads_passing).mpr ⟨_, hpassing, rfl⟩
      startTimeout := (sets_iff reads_time).mpr ⟨_, hstart, rfl⟩
      shutdownTimeout := (sets_iff reads_time).mpr ⟨_, hshutdown, rfl⟩
      killGrace := (sets_iff reads_time).mpr ⟨_, hgrace, rfl⟩
      dieWithParent := (sets_iff reads_truth).mpr ⟨_, hdie, rfl⟩ }
  · intro h
    obtain ⟨uidRange, huid, huid'⟩ := extends_iff.mp h.uidMap
    obtain ⟨gidRange, hgid, hgid'⟩ := extends_iff.mp h.gidMap
    obtain ⟨jobIdentity, hidentity, hidentity'⟩ := (sets_iff reads_identity).mp h.jobIdentity
    obtain ⟨fdPassing, hpassing, hpassing'⟩ := (sets_iff reads_passing).mp h.fdPassing
    obtain ⟨startTimeout, hstart, hstart'⟩ := (sets_iff reads_time).mp h.startTimeout
    obtain ⟨shutdownTimeout, hshutdown, hshutdown'⟩ := (sets_iff reads_time).mp h.shutdownTimeout
    obtain ⟨killGrace, hgrace, hgrace'⟩ := (sets_iff reads_time).mp h.killGrace
    obtain ⟨dieWithParent, hdie, hdie'⟩ := (sets_iff reads_truth).mp h.dieWithParent
    refine ⟨⟨uidRange, gidRange, jobIdentity, fdPassing, startTimeout, shutdownTimeout, killGrace,
      dieWithParent⟩, ⟨huid, hgid, hidentity, hpassing, hstart, hshutdown, hgrace, hdie⟩, ?_⟩
    have hexecutable := h.executable
    have hnamespaces := h.workerNamespaces
    cases c
    simp only [apply, Config.mk.injEq]
    exact ⟨hexecutable.symm, hnamespaces.symm, huid', hgid', hidentity', hpassing', hstart',
      hshutdown', hgrace', hdie'⟩

/-- A part depends on its own variables only. -/
theorem Layered.same {default : Config} (h : Layered lookup default c)
    (h' : Layered lookup' default c') (part : Part)
    (hkeys : ∀ key ∈ part.variables, lookup key = lookup' key) : part.Same c c' := by
  cases part with
  | executable => exact h.executable.trans h'.executable.symm
  | workerNamespaces => exact h.workerNamespaces.trans h'.workerNamespaces.symm
  | uidMap =>
    exact h.uidMap.unique h'.uidMap (hkeys _ List.mem_cons_self)
      (hkeys _ (List.mem_cons_of_mem _ List.mem_cons_self))
  | gidMap =>
    exact h.gidMap.unique h'.gidMap (hkeys _ List.mem_cons_self)
      (hkeys _ (List.mem_cons_of_mem _ List.mem_cons_self))
  | jobIdentity =>
    exact h.jobIdentity.unique reads_identity h'.jobIdentity (hkeys _ List.mem_cons_self)
  | fdPassing => exact h.fdPassing.unique reads_passing h'.fdPassing (hkeys _ List.mem_cons_self)
  | startTimeout =>
    exact h.startTimeout.unique reads_time h'.startTimeout (hkeys _ List.mem_cons_self)
  | shutdownTimeout =>
    exact h.shutdownTimeout.unique reads_time h'.shutdownTimeout (hkeys _ List.mem_cons_self)
  | killGrace => exact h.killGrace.unique reads_time h'.killGrace (hkeys _ List.mem_cons_self)
  | dieWithParent =>
    exact h.dieWithParent.unique reads_truth h'.dieWithParent (hkeys _ List.mem_cons_self)

/-- Of a lookup only these variables count. -/
theorem ofLookup_congr (hkeys : ∀ key ∈ names, lookup key = lookup' key) :
    ofLookup lookup = ofLookup lookup' := by
  have hvalue {α : Type} (read : String → Option α) (key : String) (hkey : key ∈ names) :
      value read lookup key = value read lookup' key := value_congr (hkeys key hkey)
  have hrange (startKey lengthKey : String) (hstart : startKey ∈ names)
      (hlength : lengthKey ∈ names) :
      range lookup startKey lengthKey = range lookup' startKey lengthKey :=
    range_congr (hkeys _ hstart) (hkeys _ hlength)
  unfold ofLookup
  rw [hrange "WARREN_UID_START" "WARREN_UID_LENGTH" (by simp [names]) (by simp [names]),
    hrange "WARREN_GID_START" "WARREN_GID_LENGTH" (by simp [names]) (by simp [names]),
    hvalue identity? "WARREN_JOB_IDENTITY" (by simp [names]),
    hvalue FdPassing.ofName? "WARREN_FD_PASSING" (by simp [names]),
    hvalue millis? "WARREN_START_TIMEOUT_MS" (by simp [names]),
    hvalue millis? "WARREN_SHUTDOWN_TIMEOUT_MS" (by simp [names]),
    hvalue millis? "WARREN_KILL_GRACE_MS" (by simp [names]),
    hvalue bool? "WARREN_DIE_WITH_PARENT" (by simp [names])]

theorem Makes.map {α β : Type} {checks : List Check} {x : Except ConfigError α}
    (hx : Makes lookup checks x) (f : α → β) : Makes lookup checks (x.map f) := by
  constructor
  · rw [← hx.ok]
    cases x <;> simp [Except.map]
  · intro e
    rw [← hx.error e]
    cases x <;> simp [Except.map]

/-- A configuration is read from ten variables and no others. There is one exactly if every check
passes, each of its parts is then the default or what its own variables say, and two
configurations that are read share every part whose variables they agree on; otherwise the error
is that of the first check that fails. -/
theorem parts_are_layered_or_the_first_mistake_counts (user group : UInt32) (lookup : Lookup) :
    ((∃ c, Config.ofLookup user group lookup = .ok c) ↔
      ∀ check ∈ checks, check.Passes lookup) ∧
    (∀ c, Config.ofLookup user group lookup = .ok c ↔
      Layered lookup (.initial user group) c) ∧
    (∀ e, Config.ofLookup user group lookup = .error e ↔ FirstFailure lookup checks e) ∧
    (∀ lookup', (∀ key ∈ names, lookup key = lookup' key) →
      Config.ofLookup user group lookup = Config.ofLookup user group lookup') ∧
    (∀ lookup' c c', Config.ofLookup user group lookup = .ok c →
      Config.ofLookup user group lookup' = .ok c' → ∀ part : Part,
        (∀ key ∈ part.variables, lookup key = lookup' key) → part.Same c c') := by
  have hmakes : Makes lookup checks (Config.ofLookup user group lookup) :=
    makes_ofLookup.map fun o => o.apply (.initial user group)
  refine ⟨hmakes.ok, fun _ => layered_iff, hmakes.error, ?_, ?_⟩
  · intro lookup' hkeys
    unfold Config.ofLookup
    rw [ofLookup_congr hkeys]
  · intro lookup' c c' hc hc'
    exact (layered_iff.mp hc).same (layered_iff.mp hc')

/-- Variables of which only the last wait is set. -/
def graceOnly : Lookup := fun key => if key = "WARREN_KILL_GRACE_MS" then some " +250\n" else none

/-- Variables with half a range, and a mistake behind it. -/
def halfRange : Lookup := fun key =>
  if key = "WARREN_UID_LENGTH" then some " 7 "
  else if key = "WARREN_KILL_GRACE_MS" then some "soon" else none

/-- Setting the last wait leaves the map of users as it was, and half a range is reported before
a mistake in a later variable. -/
theorem a_wait_leaves_the_maps_and_half_a_range_comes_first :
    (∃ c c', Config.ofLookup 1000 100 graceOnly = .ok c ∧ c.killGrace = .ofMillis 250 ∧
      Config.ofLookup 1000 100 (fun _ => none) = .ok c' ∧ c.uidMap = c'.uidMap) ∧
    Config.ofLookup 1000 100 halfRange =
      .error (.incomplete "WARREN_UID_LENGTH" "WARREN_UID_START") := by
  have hgrace : Config.ofLookup 1000 100 graceOnly =
      .ok { Config.initial 1000 100 with killGrace := .ofMillis 250 } := rfl
  have hunset : Config.ofLookup 1000 100 (fun _ => none) = .ok (.initial 1000 100) := rfl
  obtain ⟨-, -, -, -, hsame⟩ := parts_are_layered_or_the_first_mistake_counts 1000 100 graceOnly
  obtain ⟨-, -, hfirst, -⟩ := parts_are_layered_or_the_first_mistake_counts 1000 100 halfRange
  refine ⟨⟨_, _, hgrace, rfl, hunset, hsame _ _ _ hgrace hunset .uidMap ?_⟩, ?_⟩
  · intro key hkey
    simp only [Part.variables, List.mem_cons, List.not_mem_nil, or_false] at hkey
    rcases hkey with rfl | rfl <;> rfl
  · have hstart : (Check.value "WARREN_UID_START" (Valid SaysWord)).Passes halfRange := by
      intro text htext
      cases htext
    have hlength : (Check.value "WARREN_UID_LENGTH" (Valid SaysWord)).Passes halfRange := by
      intro text htext
      cases htext
      exact ⟨7, (reads_word _ _).mp rfl⟩
    exact (hfirst _).mpr (.later hstart (.later hlength (.here (.start rfl rfl))))

end Layers

end Overrides

end ProcessTree
