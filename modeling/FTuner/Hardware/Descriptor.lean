import Mathlib.Data.Rat.Defs
import Mathlib.Data.List.Basic

namespace FTuner

/-! # Hardware descriptor and aligned configurations

The data the hardware-aligned search reads: the fields of `HardwareAPINode` it uses, the
`HwAlignedConfig` record it builds level by level, and the way a C++ run can go wrong.
C++ `int` is modelled by `Int` without wrap-around and the search's `float`/`double`
quantities by `ℚ`.  A run that indexes a vector past its end, dereferences an undefined
object, hits `LOG(FATAL)`/`CHECK`, or does not leave a loop is an `Except Fault` error.
-/

instance instDecidableEqExcept [DecidableEq ε] [DecidableEq α] : DecidableEq (Except ε α)
  | .ok value, .ok other => decidable_of_iff (value = other) ⟨congrArg _, Except.ok.inj⟩
  | .error fault, .error other =>
      decidable_of_iff (fault = other) ⟨congrArg _, Except.error.inj⟩
  | .ok _, .error _ => isFalse nofun
  | .error _, .ok _ => isFalse nofun

inductive Fault where
  /-- A `std::vector` or `Array` element read or written past its end. -/
  | outOfRange (what : String)
  /-- A dereference of an undefined `State`, or of an index that is not a `Var`. -/
  | nullDeref (what : String)
  /-- `LOG(FATAL)`, a failed `CHECK`, or a division by zero. -/
  | fatal (what : String)
  /-- A loop that had not finished when its fuel ran out. -/
  | outOfFuel
  deriving DecidableEq, Repr

@[simp] theorem pure_eq_ok (value : α) : (pure value : Except ε α) = Except.ok value := rfl

@[simp] theorem ok_bind (value : α) (next : α → Except ε β) :
    (Except.ok value >>= next) = next value := rfl

@[simp] theorem error_bind (fault : ε) (next : α → Except ε β) :
    (Except.error fault >>= next) = Except.error fault := rfl

@[simp] theorem map_ok (f : α → β) (value : α) :
    (f <$> (Except.ok value : Except ε α)) = Except.ok (f value) := rfl

@[simp] theorem map_error (f : α → β) (fault : ε) :
    (f <$> (Except.error fault : Except ε α)) = Except.error fault := rfl

theorem bind_eq_ok {x : Except ε α} {next : α → Except ε β} {result : β} :
    (x >>= next) = .ok result ↔ ∃ value, x = .ok value ∧ next value = .ok result := by
  cases x <;> simp

theorem bind_ok_of_ok {x : Except ε α} {next : α → Except ε β} {shape : γ → β}
    {holds : γ → Prop}
    (ran : ∃ value, x = .ok value ∧ ∃ out, next value = .ok (shape out) ∧ holds out) :
    ∃ out, (x >>= next) = .ok (shape out) ∧ holds out := by
  obtain ⟨value, rfl, out, stepped, held⟩ := ran
  exact ⟨out, stepped, held⟩

theorem exists_ok_bind {x : Except ε α} {next : α → Except ε β}
    (first : ∃ value, x = .ok value)
    (second : ∀ value, x = .ok value → ∃ result, next value = .ok result) :
    ∃ result, (x >>= next) = .ok result := by
  obtain ⟨value, ran⟩ := first
  obtain ⟨result, stepped⟩ := second value ran
  exact ⟨result, by rw [ran, ok_bind, stepped]⟩

theorem bind_ne_ok {x : Except ε α} {next : α → Except ε β} {result : β}
    (never : ∀ value, next value ≠ .ok result) : (x >>= next) ≠ .ok result := by
  cases x
  · simp
  · exact never _

section Loops

variable {step : α → Except ε β}

theorem mapM_ok_cons {value : α} {values : List α} {results : List β}
    (ran : (value :: values).mapM step = .ok results) :
    ∃ first rest, results = first :: rest ∧ step value = .ok first ∧
      values.mapM step = .ok rest := by
  rw [List.mapM_cons] at ran
  obtain ⟨first, firstRan, ran⟩ := bind_eq_ok.mp ran
  obtain ⟨rest, restRan, ran⟩ := bind_eq_ok.mp ran
  cases ran
  exact ⟨first, rest, rfl, firstRan, restRan⟩

theorem mapM_ok_length : ∀ {values : List α} {results : List β},
    values.mapM step = .ok results → results.length = values.length
  | [], _, ran => by cases ran; rfl
  | value :: values, results, ran => by
      obtain ⟨first, rest, rfl, -, restRan⟩ := mapM_ok_cons ran
      simp [mapM_ok_length restRan]

theorem mapM_ok_forall : ∀ {values : List α} {results : List β},
    values.mapM step = .ok results → ∀ value ∈ values, ∃ result, step value = .ok result
  | [], _, _ => by simp
  | value :: values, results, ran => by
      obtain ⟨first, rest, -, firstRan, restRan⟩ := mapM_ok_cons ran
      rintro other (_ | ⟨_, mem⟩)
      exacts [⟨first, firstRan⟩, mapM_ok_forall restRan other mem]

theorem mapM_ok_getElem? : ∀ {values : List α} {results : List β} {index : Nat} {value : α},
    values.mapM step = .ok results → values[index]? = some value →
      ∃ result, step value = .ok result ∧ results[index]? = some result
  | [], _, _, _, _, found => by simp at found
  | _ :: _, _, 0, _, ran, found => by
      obtain ⟨first, rest, rfl, firstRan, -⟩ := mapM_ok_cons ran
      rw [List.getElem?_cons_zero, Option.some.injEq] at found
      exact ⟨first, found ▸ firstRan, List.getElem?_cons_zero⟩
  | _ :: values, _, index + 1, _, ran, found => by
      obtain ⟨first, rest, rfl, -, restRan⟩ := mapM_ok_cons ran
      rw [List.getElem?_cons_succ] at found
      obtain ⟨result, computed, listed⟩ := mapM_ok_getElem? restRan found
      exact ⟨result, computed, by rwa [List.getElem?_cons_succ]⟩

theorem mapM_ok_map {view : β → γ} {source : α → γ}
    (agrees : ∀ value result, step value = .ok result → view result = source value) :
    ∀ {values : List α} {results : List β}, values.mapM step = .ok results →
      results.map view = values.map source
  | [], _, ran => by cases ran; rfl
  | value :: values, results, ran => by
      obtain ⟨first, rest, rfl, firstRan, restRan⟩ := mapM_ok_cons ran
      simp [agrees _ _ firstRan, mapM_ok_map agrees restRan]

theorem mapM_eq_ok_map {pure' : α → β} :
    ∀ {values : List α}, (∀ value ∈ values, step value = .ok (pure' value)) →
      values.mapM step = .ok (values.map pure')
  | [], _ => rfl
  | value :: values, computed => by
      rw [List.mapM_cons, computed value (List.mem_cons_self _ _),
        mapM_eq_ok_map fun other mem => computed other (List.mem_cons_of_mem _ mem)]
      rfl

theorem mapM_ok_of_forall : ∀ {values : List α},
    (∀ value ∈ values, ∃ result, step value = .ok result) →
      ∃ results, values.mapM step = .ok results
  | [], _ => ⟨[], rfl⟩
  | value :: values, computed => by
      obtain ⟨first, firstRan⟩ := computed value (List.mem_cons_self _ _)
      obtain ⟨rest, restRan⟩ :=
        mapM_ok_of_forall fun other mem => computed other (List.mem_cons_of_mem _ mem)
      exact ⟨first :: rest, by rw [List.mapM_cons, firstRan, ok_bind, restRan]; rfl⟩

theorem foldlM_ok_of_forall {advance : β → α → Except ε β} :
    ∀ {values : List α}, (∀ acc, ∀ value ∈ values, ∃ next, advance acc value = .ok next) →
      ∀ init, ∃ result, values.foldlM advance init = .ok result
  | [], _, init => ⟨init, rfl⟩
  | value :: values, steps, init => by
      obtain ⟨next, stepped⟩ := steps init value (List.mem_cons_self _ _)
      obtain ⟨result, ran⟩ :=
        foldlM_ok_of_forall (fun acc other mem => steps acc other (List.mem_cons_of_mem _ mem)) next
      exact ⟨result, by rw [List.foldlM_cons, stepped, ok_bind, ran]⟩

theorem mapM_ok_getElem?_result : ∀ {values : List α} {results : List β} {index : Nat}
    {result : β}, values.mapM step = .ok results → results[index]? = some result →
      ∃ value, values[index]? = some value ∧ step value = .ok result
  | [], _, _, _, ran, found => by cases ran; simp at found
  | value :: _, _, 0, _, ran, found => by
      obtain ⟨first, rest, rfl, firstRan, -⟩ := mapM_ok_cons ran
      rw [List.getElem?_cons_zero, Option.some.injEq] at found
      exact ⟨value, List.getElem?_cons_zero, found ▸ firstRan⟩
  | _ :: _, _, index + 1, _, ran, found => by
      obtain ⟨first, rest, rfl, -, restRan⟩ := mapM_ok_cons ran
      rw [List.getElem?_cons_succ] at found ⊢
      exact mapM_ok_getElem?_result restRan found

theorem mapM_ok_mem_result {values : List α} {results : List β} {result : β}
    (ran : values.mapM step = .ok results) (mem : result ∈ results) :
    ∃ value ∈ values, step value = .ok result := by
  obtain ⟨index, found⟩ := List.mem_iff_getElem?.mp mem
  obtain ⟨value, listed, computed⟩ := mapM_ok_getElem?_result ran found
  exact ⟨value, List.getElem?_mem listed, computed⟩

theorem foldlM_ok_prefix {advance : β → α → Except ε β} (keeps : List α → β → Prop)
    (preserves : ∀ done acc value next, keeps done acc → advance acc value = .ok next →
      keeps (done ++ [value]) next) :
    ∀ {values done : List α} {init result : β}, keeps done init →
      values.foldlM advance init = .ok result → keeps (done ++ values) result
  | [], _, _, _, kept, ran => by cases ran; simpa using kept
  | value :: _, done, init, _, kept, ran => by
      obtain ⟨next, stepped, ran⟩ := bind_eq_ok.mp ran
      simpa using foldlM_ok_prefix keeps preserves (preserves done init value next kept stepped) ran

theorem foldlM_ok_visited {advance : β → α → Except ε β} (keeps : List α → β → Prop)
    (preserves : ∀ done acc value next, keeps done acc → advance acc value = .ok next →
      keeps (done ++ [value]) next) {values : List α} {init result : β} (kept : keeps [] init)
    (ran : values.foldlM advance init = .ok result) : keeps values result := by
  simpa using foldlM_ok_prefix keeps preserves kept ran

theorem foldlM_ok_invariant {advance : β → α → Except ε β} (keeps : β → Prop) :
    ∀ {values : List α} {init result : β},
      (∀ acc, ∀ value ∈ values, ∀ next, keeps acc → advance acc value = .ok next → keeps next) →
      keeps init → values.foldlM advance init = .ok result → keeps result
  | [], _, _, _, kept, ran => by cases ran; exact kept
  | value :: _, init, _, preserves, kept, ran => by
      obtain ⟨next, stepped, ran⟩ := bind_eq_ok.mp ran
      exact foldlM_ok_invariant keeps
        (fun acc other mem => preserves acc other (List.mem_cons_of_mem _ mem))
        (preserves init value (List.mem_cons_self _ _) next kept stepped) ran

theorem foldlM_ok_append {advance : List γ → α → Except ε (List γ)}
    {push : α → Except ε (List γ)}
    (appends : ∀ acc value next, advance acc value = .ok next →
      ∃ pushed, push value = .ok pushed ∧ next = acc ++ pushed) :
    ∀ {values : List α} {init result : List γ}, values.foldlM advance init = .ok result →
      ∃ pushes, values.mapM push = .ok pushes ∧ result = init ++ pushes.flatten
  | [], _, _, ran => by cases ran; exact ⟨[], rfl, by simp⟩
  | value :: _, init, _, ran => by
      obtain ⟨next, stepped, ran⟩ := bind_eq_ok.mp ran
      obtain ⟨pushed, pushOk, rfl⟩ := appends init value next stepped
      obtain ⟨pushes, pushesOk, rfl⟩ := foldlM_ok_append appends ran
      exact ⟨pushed :: pushes, by rw [List.mapM_cons, pushOk, ok_bind, pushesOk]; rfl, by simp⟩

private theorem foldlM_ok_indexed_from {advance : β → α → Except ε β}
    (keeps : Nat → β → Prop) {finish : β → Prop} :
    ∀ {values : List α} {start : Nat} {init : β},
      (∀ k acc (inRange : k < values.length), keeps (start + k) acc →
        ∃ next, advance acc values[k] = .ok next ∧ keeps (start + k + 1) next) →
      keeps start init → (∀ result, keeps (start + values.length) result → finish result) →
        ∃ result, values.foldlM advance init = .ok result ∧ finish result
  | [], _, init, _, kept, finishes => ⟨init, rfl, finishes init kept⟩
  | value :: values, start, init, steps, kept, finishes => by
      obtain ⟨next, stepped, kept⟩ := steps 0 init (Nat.succ_pos _) kept
      rw [List.getElem_cons_zero] at stepped
      obtain ⟨result, ran, finished⟩ : ∃ result, values.foldlM advance next = .ok result ∧
          finish result := foldlM_ok_indexed_from keeps
        (fun k acc inRange kept => by
          have := steps (k + 1) acc (Nat.succ_lt_succ inRange) (by rwa [Nat.add_right_comm] at kept)
          simpa only [List.getElem_cons_succ, Nat.add_right_comm start 1 k, ← Nat.add_assoc]
            using this) kept fun result kept => finishes result (by
              rwa [List.length_cons, ← Nat.add_assoc, Nat.add_right_comm])
      exact ⟨result, by rw [List.foldlM_cons, stepped, ok_bind]; exact ran, finished⟩

theorem foldlM_ok_indexed {advance : β → α → Except ε β} (keeps : Nat → β → Prop)
    {finish : β → Prop} {values : List α} {init : β}
    (steps : ∀ k acc (inRange : k < values.length), keeps k acc →
      ∃ next, advance acc values[k] = .ok next ∧ keeps (k + 1) next)
    (kept : keeps 0 init) (finishes : ∀ result, keeps values.length result → finish result) :
    ∃ result, values.foldlM advance init = .ok result ∧ finish result :=
  foldlM_ok_indexed_from keeps
    (fun index acc inRange before => by
      simpa only [Nat.zero_add] using
        steps index acc inRange (by simpa only [Nat.zero_add] using before))
    kept fun result done => finishes result (by simpa only [Nat.zero_add] using done)

private theorem foldlM_ok_counted_from {advance : β → α → Except ε β}
    (keeps : Nat → β → Prop) :
    ∀ {values : List α} {start : Nat} {init result : β},
      (∀ k acc next (inRange : k < values.length), keeps (start + k) acc →
        advance acc values[k] = .ok next → keeps (start + k + 1) next) →
      keeps start init → values.foldlM advance init = .ok result →
        keeps (start + values.length) result
  | [], _, _, _, _, kept, ran => by cases ran; exact kept
  | value :: values, start, init, _, preserves, kept, ran => by
      obtain ⟨next, stepped, ran⟩ := bind_eq_ok.mp ran
      have kept := preserves 0 init next (Nat.succ_pos _) kept stepped
      have := foldlM_ok_counted_from keeps (fun index acc after inRange before => by
        have := preserves (index + 1) acc after (Nat.succ_lt_succ inRange)
          (by rwa [Nat.add_right_comm] at before)
        simpa only [List.getElem_cons_succ, Nat.add_right_comm start 1 index, ← Nat.add_assoc]
          using this) kept ran
      rwa [List.length_cons, ← Nat.add_assoc, Nat.add_right_comm]

theorem foldlM_ok_counted {advance : β → α → Except ε β} (keeps : Nat → β → Prop)
    {values : List α} {init result : β}
    (preserves : ∀ k acc next (inRange : k < values.length), keeps k acc →
      advance acc values[k] = .ok next → keeps (k + 1) next)
    (kept : keeps 0 init) (ran : values.foldlM advance init = .ok result) :
    keeps values.length result := by
  have := foldlM_ok_counted_from keeps
    (fun index acc after inRange before => by
      simpa only [Nat.zero_add] using
        preserves index acc after inRange (by simpa only [Nat.zero_add] using before))
    kept ran
  simpa only [Nat.zero_add] using this

theorem foldlM_error_of_steps {advance : β → α → Except ε β} {fault : ε} :
    ∀ {values : List α} {init : β} {other : ε},
      (∀ acc, ∀ value ∈ values, ∀ other,
        advance acc value = .error other → other = fault) →
      values.foldlM advance init = .error other → other = fault
  | [], _, _, _, ran => by cases ran
  | value :: _, init, _, only, ran => by
      rw [List.foldlM_cons] at ran
      cases stepped : advance init value with
      | error first =>
          rw [stepped, error_bind] at ran
          cases ran
          exact only init value (List.mem_cons_self _ _) _ stepped
      | ok next =>
          rw [stepped, ok_bind] at ran
          exact foldlM_error_of_steps
            (fun acc other mem => only acc other (List.mem_cons_of_mem _ mem)) ran

end Loops

/-! ## Row-major blocks

A list of blocks of one size, concatenated, is read at `index * size + offset`. -/

section Blocks

variable {α β : Type}

theorem length_flatMap_uniform {values : List α} {expand : α → List β} {size : Nat}
    (uniform : ∀ value ∈ values, (expand value).length = size) :
    (values.flatMap expand).length = values.length * size := by
  induction values with
  | nil => simp
  | cons value values ih =>
      rw [List.flatMap_cons, List.length_append, uniform value (List.mem_cons_self _ _),
        ih fun other mem => uniform other (List.mem_cons_of_mem _ mem), List.length_cons,
        Nat.succ_mul, Nat.add_comm]

theorem getElem?_flatMap_uniform {expand : α → List β} {size offset : Nat}
    (uniform : ∀ value, (expand value).length = size) (inBlock : offset < size) :
    ∀ {values : List α} {index : Nat} {value : α}, values[index]? = some value →
      (values.flatMap expand)[index * size + offset]? = (expand value)[offset]?
  | [], _, _, found => by simp at found
  | first :: values, 0, value, found => by
      rw [List.getElem?_cons_zero, Option.some.injEq] at found
      subst found
      rw [List.flatMap_cons, Nat.zero_mul, Nat.zero_add,
        List.getElem?_append_left (by rwa [uniform])]
  | first :: values, index + 1, value, found => by
      rw [List.getElem?_cons_succ] at found
      rw [List.flatMap_cons, List.getElem?_append_right (by rw [uniform, Nat.succ_mul]; omega),
        uniform, show (index + 1) * size + offset - size = index * size + offset by
          rw [Nat.succ_mul]; omega]
      exact getElem?_flatMap_uniform uniform inBlock found

theorem div_mod_of_lt {size offset : Nat} (q : Nat) (below : offset < size) :
    (q * size + offset) / size = q ∧ (q * size + offset) % size = offset := by
  have positive : 0 < size := Nat.lt_of_le_of_lt (Nat.zero_le _) below
  constructor
  · rw [Nat.add_comm, Nat.add_mul_div_right _ _ positive, Nat.div_eq_of_lt below, Nat.zero_add]
  · rw [Nat.add_comm, Nat.add_mul_mod_self_right, Nat.mod_eq_of_lt below]

theorem rowMajor_lt {index rows offset size : Nat} (row : index < rows) (column : offset < size) :
    index * size + offset < rows * size :=
  calc index * size + offset < index * size + size := Nat.add_lt_add_left column _
    _ = (index + 1) * size := (Nat.succ_mul index size).symm
    _ ≤ rows * size := Nat.mul_le_mul_right size row

theorem rowMajor_inj {index other offset offset' size : Nat} (below : offset < size)
    (below' : offset' < size) (same : index * size + offset = other * size + offset') :
    index = other ∧ offset = offset' := by
  have := div_mod_of_lt index below
  rw [same, (div_mod_of_lt other below').1, (div_mod_of_lt other below').2] at this
  exact ⟨this.1.symm, this.2.symm⟩

theorem rowMajor_ext {values others : List α} {rows size : Nat}
    (counted : values.length = rows * size) (counted' : others.length = rows * size)
    (cells : ∀ index offset, index < rows → offset < size →
      values[index * size + offset]? = others[index * size + offset]?) : values = others := by
  refine List.ext_getElem? fun position => ?_
  by_cases inside : position < rows * size
  · have positive : 0 < size := Nat.pos_of_ne_zero fun empty => by simp [empty] at inside
    rw [← Nat.div_add_mod' position size]
    exact cells _ _ ((Nat.div_lt_iff_lt_mul positive).mpr inside) (Nat.mod_lt _ positive)
  · rw [List.getElem?_eq_none (by omega), List.getElem?_eq_none (by omega)]

end Blocks

/-- `values[index]`, failing as the C++ access does past the end. -/
def readAt (values : List α) (index : Nat) (what : String) : Except Fault α :=
  match values[index]? with
  | some value => .ok value
  | none => .error (.outOfRange what)

/-- `values[index] = value`. -/
def writeAt (values : List α) (index : Nat) (value : α) (what : String) : Except Fault (List α) :=
  if index < values.length then .ok (values.set index value) else .error (.outOfRange what)

theorem writeAt_eq_ok_iff {values values' : List α} {index : Nat} {value : α} {what : String} :
    writeAt values index value what = .ok values' ↔
      index < values.length ∧ values' = values.set index value := by
  unfold writeAt
  split_ifs with inRange <;> simp [inRange, eq_comm]

theorem readAt_of_lt {values : List α} {index : Nat} {what : String}
    (inRange : index < values.length) : readAt values index what = .ok values[index] := by
  simp [readAt, List.getElem?_eq_getElem inRange]

theorem readAt_eq_ok {values : List α} {index : Nat} {what : String} {value : α}
    (read : readAt values index what = .ok value) : ∃ inRange : index < values.length,
      values[index] = value := by
  unfold readAt at read
  split at read
  · rename_i found
    obtain ⟨inRange, rfl⟩ := List.getElem?_eq_some_iff.mp found
    cases read
    exact ⟨inRange, rfl⟩
  · cases read

theorem readAt_eq_ok_iff {values : List α} {index : Nat} {what : String} {value : α} :
    readAt values index what = .ok value ↔ values[index]? = some value := by
  unfold readAt
  cases values[index]? <;> simp

/-- The fields of `HardwareAPINode` (and the core count of `HardwareParams`) that the
hardware-aligned search and its filters read. -/
structure HardwareAPI where
  numLevel : Int
  bandwidth : List Int
  peakFlops : ℚ
  regCap : List Int
  smemCap : List Int
  warpSize : Int
  computeSmPartition : List Int
  smemSmPartition : List Int
  transactionSize : List Int
  glbmemSmPartition : List Int
  maxSmemUsagePerSm : Int
  maxRegPerSm : Int
  ltRatio : ℚ
  gtRatio : ℚ
  numCores : Int
  deriving DecidableEq, Repr

/-- A V100-like two-level descriptor, the base of the concrete runs below. -/
def sampleHardwareApi : HardwareAPI :=
  { numLevel := 2, bandwidth := [900, 13800], peakFlops := 15700, regCap := [65536, 255],
    smemCap := [49152], warpSize := 32, computeSmPartition := [80, 4], smemSmPartition := [80, 2],
    transactionSize := [32], glbmemSmPartition := [80], maxSmemUsagePerSm := 98304,
    maxRegPerSm := 65536, ltRatio := 1, gtRatio := 1, numCores := 80 }

/-- `hardware::HwAlignedConfig`.  Index `l` of each per-level list is memory level `l + 1`:
index 1 holds the register tiles, index 0 the shared-memory tiles.  The scalar fields a
register-level config never sets are `0` here. -/
structure HwAlignedConfig where
  spaceTiles : List (List Int)
  reduceTiles : List (List Int)
  computeIntensiveRatio : List ℚ
  singleThreadRegUsage : Int
  spaceProductionThreshold : Int
  smemUsage : Int
  threadsNum : Int
  deriving DecidableEq, Repr

/-- A default-constructed config, such as `no_base_config` in `EmitConfig`. -/
def HwAlignedConfig.empty : HwAlignedConfig :=
  ⟨[], [], [], 0, 0, 0, 0⟩

/-- The tiling helpers of the auto-scheduler's `utils.h` that the sources call but that are not
under src/.  The development is generic in them. -/
structure Utils where
  /-- `GetPrimNumber(extents)`: the register-tile multipliers offered for a dimension. -/
  getPrimNumber : List Int → List Int
  /-- `GetParallelism(smem_tiles, reg_tiles)`: the thread count of a shared-memory tile. -/
  getParallelism : List Int → List Int → Int

end FTuner
