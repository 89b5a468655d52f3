import ScpiScript.Proofs.Lua.Keys
import ScpiScript.Proofs.Lua.Sending
/-!
# Tables that are read as vectors

A table of numbers whose keys are the integers from one to some number is read as their
vector. Other tables are read as vectors too in two cases: where there are as many keys
outside the sequence as it has holes, what stands in front of the first hole is read; and
texts that hold numbers are read as these numbers.

- `Table.IsNumberRow` are the tables that are vectors, and `Table.IsMisread` the others that
  are read as some, with no word of how a table is read.
- `Table.samples?_eq_some_iff` holds the reading of a table against them.
- `Machine.lookup_table` says what a table means to a script and to the functions that
  send vectors.
-/

namespace ScpiScript.Lua

open Layout (largestKey)

namespace Table

variable {t : Table}

/-! ## Kinds of tables -/

/-- The samples of some numbers. -/
def samplesOf (numbers : List Number) : List Binary32 := numbers.map fun n => n.toFloat.narrow

/-- The keys of a table are the integers from one to the number of these numbers, which
stand under them in order. -/
structure IsNumberRow (t : Table) (numbers : List Number) : Prop where
  getAt_eq : ∀ i (h : i < numbers.length), t.getAt (i + 1) = .number numbers[i]
  only : ∀ key, t.get key ≠ .nil → ∃ i < numbers.length, key.asKey = .ofNat (i + 1)
  length_le : numbers.length ≤ largestKey

/-- How many integers from one to the length have no value. -/
def holes (t : Table) : Nat := (List.range t.length).countP fun i => !t.has (i + 1)

/-- How many keys are no integers from one to the length. -/
def extras (t : Table) : Nat := t.entries.keys.countP fun key => !Layout.isUpTo t.length key

/-- A table that is no row of numbers but is read as one: it has as many keys outside the
sequence as holes in it, and in front of the first hole only numbers and texts that hold
some, among them a text if there is no hole. -/
structure IsMisread (t : Table) (samples : List Binary32) : Prop where
  extras_eq : t.extras = t.holes
  length_le : samples.length ≤ t.length
  toSample?_eq : ∀ i (h : i < samples.length), (t.getAt (i + 1)).toSample? = some samples[i]
  ends : samples.length = t.length ∨ t.getAt (samples.length + 1) = .nil
  wrong : samples.length < t.length ∨ ∃ i < samples.length, ∃ text, t.getAt (i + 1) = .str text

/-! ## Counting -/

theorem isUpTo_iff {n : Nat} (hn : n ≤ largestKey) {key : Value} :
    Layout.isUpTo n key = true ↔ ∃ i < n, key = .ofNat (i + 1) := by
  have hplace : Layout.isUpTo n key = true ↔ ∃ i < n, Entries.place? key = some i := by
    unfold Layout.isUpTo Entries.place?
    split
    · rename_i k
      simp only [Bool.and_eq_true, decide_eq_true_eq]
      split
      · simp only [Option.some_inj, exists_eq_right']
        omega
      · simp only [reduceCtorEq, and_false, exists_false, iff_false]
        omega
    · simp
  rw [hplace]
  refine exists_congr fun i => and_congr_right fun hi => ?_
  rw [Entries.place?_eq_some_iff, and_iff_right (Nat.lt_of_lt_of_le hi hn)]

theorem has_iff {i : Nat} : t.has i = true ↔ t.getAt i ≠ .nil := bne_iff_ne

theorem mem_keys_ofNat (h : t.Sound) {i : Nat} :
    .ofNat i ∈ t.entries.keys ↔ t.has i = true := by
  rw [Entries.mem_keys h.entries, has_iff]
  rfl

theorem nodup_positions {n : Nat} (hn : n ≤ largestKey) (p : Nat → Bool) :
    (((List.range n).filter p).map fun i => Value.ofNat (i + 1)).Nodup := by
  refine List.Nodup.map_on (fun i hi j hj heq => ?_) (List.nodup_range.filter p)
  have hi := List.mem_range.mp (List.mem_of_mem_filter hi)
  have hj := List.mem_range.mp (List.mem_of_mem_filter hj)
  exact Nat.succ.inj ((ofNat_inj_of_le (by omega) (by omega)).mp heq)

/-- The keys in a sequence are its positions with a value. -/
theorem countP_isUpTo (h : t.Sound) {n : Nat} (hn : n ≤ largestKey) :
    t.entries.keys.countP (Layout.isUpTo n) =
      (List.range n).countP fun i => t.has (i + 1) := by
  have hperm : (t.entries.keys.filter (Layout.isUpTo n)).Perm
      (((List.range n).filter fun i => t.has (i + 1)).map fun i => Value.ofNat (i + 1)) := by
    refine (List.perm_ext_iff_of_nodup ((Entries.nodup_keys h.entries).filter _)
      (nodup_positions hn _)).mpr fun key => ?_
    simp only [List.mem_filter, List.mem_map, List.mem_range, isUpTo_iff hn]
    constructor
    · rintro ⟨hkey, i, hi, rfl⟩
      exact ⟨i, ⟨hi, (mem_keys_ofNat h).mp hkey⟩, rfl⟩
    · rintro ⟨i, ⟨hi, hhas⟩, rfl⟩
      exact ⟨(mem_keys_ofNat h).mpr hhas, i, hi, rfl⟩
  rw [List.countP_eq_length_filter, List.countP_eq_length_filter, hperm.length_eq,
    List.length_map]

/-- There are as many keys as the length says if those outside the sequence are as many as
its holes. -/
theorem count_eq_length_iff (h : t.Sound) : t.count = t.length ↔ t.extras = t.holes := by
  have hkeys := List.length_eq_countP_add_countP (Layout.isUpTo t.length) (l := t.entries.keys)
  have hpositions :=
    List.length_eq_countP_add_countP (fun i => t.has (i + 1)) (l := List.range t.length)
  rw [Entries.length_keys, countP_isUpTo h h.isBorder_length.le] at hkeys
  rw [List.length_range] at hpositions
  have hextras : t.extras =
      t.entries.keys.countP fun key => ¬ Layout.isUpTo t.length key = true :=
    congrArg (List.countP · t.entries.keys) (funext fun key => by simp)
  have hholes : t.holes = (List.range t.length).countP fun i => ¬ t.has (i + 1) = true :=
    congrArg (List.countP · (List.range t.length)) (funext fun i => by simp)
  rw [hextras, hholes, count]
  omega

/-! ## The values that are read -/

/-- The values in front of the first nil are read if all of them count as samples. -/
theorem mapM_takeWhile_eq_some_iff {values : List Value} {samples : List Binary32} :
    (values.takeWhile (· != .nil)).mapM Value.toSample? = some samples ↔
      samples.length ≤ values.length ∧
        (∀ i (h : i < samples.length), (values[i]?.getD .nil).toSample? = some samples[i]) ∧
        values[samples.length]?.getD .nil = .nil := by
  have hnil : Value.nil.toSample? = none := rfl
  induction values generalizing samples with
  | nil => cases samples <;> simp
  | cons v rest ih =>
    by_cases hv : v = .nil
    · cases samples with
      | nil => simp [hv]
      | cons x xs =>
        -- nil is no sample
        refine iff_of_false (by simp [hv]) fun h => ?_
        have hfirst := h.2.1 0 (Nat.zero_lt_succ _)
        simp [hv, hnil] at hfirst
    · have hfirst : (v :: rest).takeWhile (· != .nil) = v :: rest.takeWhile (· != .nil) :=
        List.takeWhile_cons_of_pos (by simpa using hv)
      rw [hfirst, List.mapM_cons]
      cases samples with
      | nil => simp [Option.bind_eq_some_iff, hv]
      | cons x xs =>
        have hsplit : ((do
            let y ← v.toSample?
            let ys ← (rest.takeWhile (· != .nil)).mapM Value.toSample?
            pure (y :: ys)) = some (x :: xs)) ↔
            v.toSample? = some x ∧
              (rest.takeWhile (· != .nil)).mapM Value.toSample? = some xs := by
          simp [Option.bind_eq_some_iff]
        refine (hsplit.trans (and_congr_right' ih)).trans ?_
        simp only [List.length_cons, Nat.add_le_add_iff_right, List.getElem?_cons_succ]
        constructor
        · rintro ⟨hx, hle, hrest, hend⟩
          refine ⟨hle, fun i hi => ?_, hend⟩
          cases i with
          | zero => exact hx
          | succ i => exact hrest i (Nat.lt_of_succ_lt_succ hi)
        · rintro ⟨hle, hall, hend⟩
          exact ⟨hall 0 (Nat.zero_lt_succ _), hle,
            fun i hi => hall (i + 1) (Nat.succ_lt_succ hi), hend⟩

/-- The samples that are read of a table. -/
theorem mapM_sequence_eq_some_iff {samples : List Binary32} :
    t.sequence.mapM Value.toSample? = some samples ↔
      samples.length ≤ t.count ∧
        (∀ i (h : i < samples.length), (t.getAt (i + 1)).toSample? = some samples[i]) ∧
        (samples.length = t.count ∨ t.getAt (samples.length + 1) = .nil) := by
  rw [sequence, mapM_takeWhile_eq_some_iff, List.length_map, List.length_range]
  refine and_congr_right fun hle => and_congr ?_ ?_
  · refine forall₂_congr fun i hi => ?_
    simp [Nat.lt_of_lt_of_le hi hle]
  · rcases Nat.lt_or_eq_of_le hle with hlt | heq
    · simp [hlt, Nat.ne_of_lt hlt]
    · simp [heq]

/-! ## Rows of numbers -/

theorem toSample?_number (n : Number) : (Value.number n).toSample? = some n.toFloat.narrow := rfl

theorem IsNumberRow.has_iff {numbers : List Number} (h : t.IsNumberRow numbers) {i : Nat}
    (hi : i ≤ largestKey) : t.has i = true ↔ 1 ≤ i ∧ i ≤ numbers.length := by
  rw [Table.has_iff]
  constructor
  · intro hvalue
    obtain ⟨j, hj, hkey⟩ := h.only (.ofNat i) hvalue
    have hlength := h.length_le
    have hij := (ofNat_inj_of_le hi (by omega)).mp hkey
    omega
  · rintro ⟨hpos, hle⟩
    obtain ⟨j, rfl⟩ : ∃ j, i = j + 1 := ⟨i - 1, by omega⟩
    rw [h.getAt_eq j hle]
    exact nofun

/-- A row of numbers has no holes, and no keys outside the sequence. -/
theorem IsNumberRow.length_eq {numbers : List Number} (h : t.IsNumberRow numbers)
    (hsound : t.Sound) : t.length = numbers.length := by
  obtain ⟨hbelow, habove, hle⟩ := hsound.isBorder_length
  have hlength := h.length_le
  have hat : t.length ≤ numbers.length := by
    rcases hbelow with hzero | hat
    · omega
    · exact ((h.has_iff hle).mp hat).2
  rcases habove with hlargest | habsent
  · omega
  · by_contra hne
    rw [(h.has_iff (by omega)).mpr (by omega)] at habsent
    cases habsent

theorem IsNumberRow.count_eq {numbers : List Number} (h : t.IsNumberRow numbers)
    (hsound : t.Sound) : t.count = t.length := by
  have hlength := h.length_eq hsound
  have hholes : t.holes = 0 := by
    refine List.countP_eq_zero.mpr fun i hi => ?_
    have hi := List.mem_range.mp hi
    have hle := h.length_le
    rw [(h.has_iff (by omega)).mpr ⟨by omega, by omega⟩]
    exact Bool.false_ne_true
  have hextras : t.extras = 0 := by
    refine List.countP_eq_zero.mpr fun key hkey => ?_
    have hvalue : t.get key ≠ .nil := by
      rw [Table.get, Entries.asKey_of_mem_keys hsound.entries hkey]
      exact (Entries.mem_keys hsound.entries).mp hkey
    obtain ⟨i, hi, hposition⟩ := h.only key hvalue
    rw [Entries.asKey_of_mem_keys hsound.entries hkey] at hposition
    rw [(isUpTo_iff hsound.isBorder_length.le).mpr ⟨i, by omega, hposition⟩]
    exact Bool.false_ne_true
  rw [count_eq_length_iff hsound, hextras, hholes]

theorem IsNumberRow.samples?_eq {numbers : List Number} (h : t.IsNumberRow numbers)
    (hsound : t.Sound) : t.samples? = some (samplesOf numbers) := by
  have hcount := h.count_eq hsound
  have hlength := h.length_eq hsound
  have hsamples : (samplesOf numbers).length = numbers.length := List.length_map _
  rw [samples?, if_pos hcount, mapM_sequence_eq_some_iff]
  refine ⟨by omega, fun i hi => ?_, .inl (by omega)⟩
  rw [h.getAt_eq i (hsamples ▸ hi), toSample?_number]
  simp [samplesOf]

/-- No row of numbers is misread. -/
theorem IsNumberRow.not_isMisread {numbers : List Number} (h : t.IsNumberRow numbers)
    (hsound : t.Sound) (samples : List Binary32) : ¬ t.IsMisread samples := by
  intro hmisread
  have hlength := h.length_eq hsound
  rcases hmisread.wrong with hlt | ⟨i, hi, text, htext⟩
  · have hend := hmisread.ends.resolve_left (Nat.ne_of_lt hlt)
    rw [h.getAt_eq samples.length (by omega)] at hend
    cases hend
  · have hle := hmisread.length_le
    rw [h.getAt_eq i (by omega)] at htext
    cases htext

/-! ## What is read -/

/-- The number under a position. -/
def numberAt (t : Table) (i : Nat) : Number :=
  match t.getAt (i + 1) with
  | .number n => n
  | _ => .int 0

/-- Only numbers, and texts that hold one, count as samples. -/
theorem toSample?_cases {v : Value} {x : Binary32} (h : v.toSample? = some x) :
    (∃ n : Number, v = .number n ∧ x = n.toFloat.narrow) ∨ ∃ text, v = .str text := by
  cases v with
  | number n => exact .inl ⟨n, rfl, (Option.some.inj h).symm⟩
  | str text => exact .inr ⟨text, rfl⟩
  | _ => cases h

/-- A table without holes and without keys outside its sequence is a row of its numbers. -/
theorem isNumberRow_of_extras_eq (h : t.Sound) (hextras : t.extras = t.holes)
    (hnumber : ∀ i < t.length, ∃ n : Number, t.getAt (i + 1) = .number n) :
    t.IsNumberRow ((List.range t.length).map t.numberAt) where
  getAt_eq i hi := by
    rw [List.length_map, List.length_range] at hi
    obtain ⟨n, hn⟩ := hnumber i hi
    rw [List.getElem_map, List.getElem_range, numberAt, hn]
  only key hkey := by
    have hholes : t.holes = 0 := by
      refine List.countP_eq_zero.mpr fun i hi => ?_
      obtain ⟨n, hn⟩ := hnumber i (List.mem_range.mp hi)
      rw [Bool.not_eq_true', Bool.not_eq_false, Table.has_iff, hn]
      exact nofun
    have hmem : key.asKey ∈ t.entries.keys := (Entries.mem_keys h.entries).mpr hkey
    have hposition := List.countP_eq_zero.mp (hextras.trans hholes) _ hmem
    rw [Bool.not_eq_true', Bool.not_eq_false, isUpTo_iff h.isBorder_length.le] at hposition
    simpa using hposition
  length_le := by
    rw [List.length_map, List.length_range]
    exact h.isBorder_length.le

/-- A table is read as a vector if it is a row of numbers, and if it is misread. -/
theorem samples?_eq_some_iff (h : t.Sound) {samples : List Binary32} :
    t.samples? = some samples ↔
      (∃ numbers, t.IsNumberRow numbers ∧ samples = samplesOf numbers) ∨
        t.IsMisread samples := by
  constructor
  · intro hsamples
    unfold samples? at hsamples
    split at hsamples
    · rename_i hcount
      have hextras := (count_eq_length_iff h).mp hcount
      rw [mapM_sequence_eq_some_iff, hcount] at hsamples
      obtain ⟨hle, hat, hend⟩ := hsamples
      by_cases hwhole : samples.length = t.length ∧
          ¬ ∃ i < samples.length, ∃ text, t.getAt (i + 1) = .str text
      · obtain ⟨hlength, htext⟩ := hwhole
        have hnumber : ∀ i (hi : i < samples.length), ∃ n : Number,
            t.getAt (i + 1) = .number n ∧ samples[i] = n.toFloat.narrow := fun i hi =>
          (toSample?_cases (hat i hi)).resolve_right fun ⟨text, hstr⟩ =>
            htext ⟨i, hi, text, hstr⟩
        refine .inl ⟨_, isNumberRow_of_extras_eq h hextras fun i hi => ?_, ?_⟩
        · obtain ⟨n, hn, -⟩ := hnumber i (by omega)
          exact ⟨n, hn⟩
        · refine List.ext_getElem (by simp [samplesOf, hlength]) fun i hi _ => ?_
          obtain ⟨n, hn, hx⟩ := hnumber i hi
          simp [samplesOf, numberAt, hn, hx]
      · refine .inr ⟨hextras, hle, hat, hend, ?_⟩
        by_cases hlt : samples.length < t.length
        · exact .inl hlt
        · exact .inr (by_contra fun htext => hwhole ⟨by omega, htext⟩)
    · cases hsamples
  · rintro (⟨numbers, hrow, rfl⟩ | hmisread)
    · exact hrow.samples?_eq h
    · have hcount := (count_eq_length_iff h).mpr hmisread.extras_eq
      rw [samples?, if_pos hcount, mapM_sequence_eq_some_iff, hcount]
      exact ⟨hmisread.length_le, hmisread.toSample?_eq, hmisread.ends⟩

end Table

/-! ## Vectors as arguments -/

theorem vectorArgument_refused {m : Memory} {arguments : List Value} (name : String)
    (h : m.samples? (argument arguments 2) = none) :
    ∃ message m',
      (vectorArgument name arguments).run m = .done (.error (.refused message), m') := by
  let kind := (argument arguments 2).kind
  refine ⟨s!"bad argument #2 to '{name}' (float vector expected, got {kind})",
    m.sampled (argument arguments 2), ?_⟩
  unfold vectorArgument
  dsimp only
  rw [run_get_bind, h]
  rfl

/-- A function that sends a vector asks nothing of the instrument where it is given none. -/
theorem call_refused {m : Memory} {arguments : List Value}
    (h : m.samples? (argument arguments 2) = none) {f : Builtin}
    (hf : f = .sendFloats ∨ f = .sendBlock) :
    ∃ message m', (f.call arguments).run m = .done (.error (.refused message), m') := by
  have hsequence {α : Type} (name : String) (next : List Binary32 → LuaM α) :
      ∃ message m', (vectorArgument name arguments >>= next).run m =
        .done (.error (.refused message), m') := by
    obtain ⟨message, m', hvector⟩ := vectorArgument_refused name h
    refine ⟨message, m', ?_⟩
    show Dialogue.bind ((vectorArgument name arguments).run m) _ = _
    rw [hvector]
    rfl
  -- the lead text is looked at first, and may be refused too
  cases htext : (argument arguments 1).toText? with
  | none =>
    refine ⟨s!"bad argument #2: string expected, got {(argument arguments 1).kind}", m, ?_⟩
    rcases hf with rfl | rfl
    all_goals
      unfold Builtin.call textArgument
      rw [htext]
      rfl
  | some lead =>
    have hlead : textArgument arguments 1 = pure lead := by
      rw [textArgument, htext]
    rcases hf with rfl | rfl
    · unfold Builtin.call
      rw [hlead]
      exact hsequence "send_floats" _
    · unfold Builtin.call
      rw [hlead]
      exact hsequence "send_block" _

namespace Machine

/-- What a table is to a script. A row of numbers is looked up as the vector of their
samples, in order. Any other table is looked up as a vector exactly if it is misread; if it
is not, it is something that only the engine can hold, and the functions that send a vector
refuse it without asking anything of the instrument. -/
theorem lookup_table {m : Memory} {name : String} {i : Nat} (hname : m.global name = .table i)
    (h : (m.table i).Built) :
    (∀ numbers, (m.table i).IsNumberRow numbers →
        Scope.lookup (Machine.mk m) name = some (.vector (Table.samplesOf numbers))) ∧
      ((∀ numbers, ¬ (m.table i).IsNumberRow numbers) →
        (∀ samples, Scope.lookup (Machine.mk m) name = some (.vector samples) ↔
            (m.table i).IsMisread samples) ∧
          ((∀ samples, ¬ (m.table i).IsMisread samples) →
            Scope.lookup (Machine.mk m) name = some (.foreign "table") ∧
              ∀ (f : Builtin) (lead : Value), f = .sendFloats ∨ f = .sendBlock →
                ∃ message m', (f.call [.instrument, lead, .table i]).run m =
                  .done (.error (.refused message), m'))) := by
  have hsound := h.sound
  have hvalue : Scope.lookup (Machine.mk m) name =
      some ((m.table i).samples?.elim (.foreign "table") .vector) := by
    have hsamples : m.samples? (.table i) = (m.table i).samples? := rfl
    show scopeValue m (m.global name) = _
    rw [hname]
    unfold scopeValue
    rw [hsamples]
    cases (m.table i).samples? <;> rfl
  have hvector : ∀ samples, Scope.lookup (Machine.mk m) name = some (.vector samples) ↔
      (m.table i).samples? = some samples := by
    intro samples
    rw [hvalue]
    cases (m.table i).samples? <;> simp
  refine ⟨fun numbers hrow => (hvector _).mpr (hrow.samples?_eq hsound), fun hrow => ?_⟩
  have hread : ∀ samples, (m.table i).samples? = some samples ↔
      (m.table i).IsMisread samples := by
    intro samples
    rw [Table.samples?_eq_some_iff hsound]
    exact or_iff_right fun ⟨numbers, hnumbers, _⟩ => hrow numbers hnumbers
  refine ⟨fun samples => (hvector samples).trans (hread samples), fun hmisread => ?_⟩
  have hnone : (m.table i).samples? = none :=
    Option.eq_none_iff_forall_ne_some.mpr fun samples hsamples =>
      hmisread samples ((hread samples).mp hsamples)
  have hargument (lead : Value) :
      m.samples? (argument [.instrument, lead, .table i] 2) = none := hnone
  exact ⟨by rw [hvalue, hnone, Option.elim_none],
    fun f lead hf => call_refused (hargument lead) hf⟩

/-- A memory with the tables of the constructors `{1, 0.5}` and `{1, a = 1}` as `t` and `u`. -/
def twoTables : Memory where
  tables :=
    #[(Table.empty.set (.ofText "t") (.table 1)).set (.ofText "u") (.table 2),
      (Table.sized 2 0).fill 0 [.number (.int 1), .number (.float ⟨0x3FE0000000000000⟩)],
      ((Table.sized 1 1).set (.ofText "a") (.number (.int 1))).fill 0 [.number (.int 1)]]
  vectors := #[]
  cells := #[]
  closures := #[]
  files := ⟨[], []⟩

/-- The first table is the vector of one and a half, the second is no vector and cannot be
sent. -/
theorem lookup_table_twoTables :
    twoTables.global "t" = .table 1 ∧ (twoTables.table 1).Built ∧
      (twoTables.table 1).IsNumberRow [.int 1, .float ⟨0x3FE0000000000000⟩] ∧
      Scope.lookup (Machine.mk twoTables) "t" =
        some (.vector [⟨0x3F800000⟩, ⟨0x3F000000⟩]) ∧
      twoTables.global "u" = .table 2 ∧ (twoTables.table 2).Built ∧
      (∀ numbers, ¬ (twoTables.table 2).IsNumberRow numbers) ∧
      (∀ samples, ¬ (twoTables.table 2).IsMisread samples) ∧
      Scope.lookup (Machine.mk twoTables) "u" = some (.foreign "table") := by
  have hfirst : (twoTables.table 1).Built := .fill (.sized (by decide) 0) (by decide)
  have hsecond : (twoTables.table 2).Built :=
    .fill (.set (.sized (by decide) 1) _ _) (by decide)
  have hrow : (twoTables.table 1).IsNumberRow [.int 1, .float ⟨0x3FE0000000000000⟩] :=
    Table.isNumberRow_of_extras_eq hfirst.sound (by decide +kernel) fun i hi => by
      have hi : i < 2 := hi
      interval_cases i
      · exact ⟨.int 1, rfl⟩
      · exact ⟨.float ⟨0x3FE0000000000000⟩, rfl⟩
  have hother : ∀ numbers, ¬ (twoTables.table 2).IsNumberRow numbers := fun numbers h => by
    obtain ⟨i, -, hkey⟩ := h.only (.ofText "a") (by decide +kernel)
    cases hkey
  have hmisread : ∀ samples, ¬ (twoTables.table 2).IsMisread samples := fun samples h =>
    absurd h.extras_eq (by decide +kernel)
  have ht : twoTables.global "t" = .table 1 := by decide +kernel
  have hu : twoTables.global "u" = .table 2 := by decide +kernel
  have hsamples : Table.samplesOf [.int 1, .float ⟨0x3FE0000000000000⟩] =
      [⟨0x3F800000⟩, ⟨0x3F000000⟩] := by decide +kernel
  refine ⟨ht, hfirst, hrow, ?_, hu, hsecond, hother, hmisread, ?_⟩
  · rw [← hsamples]
    exact (lookup_table ht hfirst).1 _ hrow
  · exact (((lookup_table hu hsecond).2 hother).2 hmisread).1

/-- What a name stands for after some code without a use of the instrument ran at the
start. -/
def boundBy? (code name : String) : Option ScopeValue :=
  match execute (start ⟨[], []⟩ []) code "code" with
  | .done (.ok (), engine) => Scope.lookup engine name
  | _ => none

/-- A hole that is made up for by another key, and a text that holds a number, are read as
vectors. -/
theorem misread_asVector :
    boundBy? "t = {1, nil, 3, a = 4}" "t" = some (.vector [⟨0x3F800000⟩]) ∧
      boundBy? "t = {} t[1] = '1' t[2] = 2" "t" = some (.vector [⟨0x3F800000⟩, ⟨0x40000000⟩]) := by
  decide +kernel

end Machine

end ScpiScript.Lua
