import Mathlib.Data.List.TakeWhile
import ScpiScript.Proofs.Block.LengthPrefix
/-!
# Parameter blocks read back

A parameter block has the lead of its text up to the first hash sign, and behind the sign the
count of the payload and the payload itself. The prefix says where it ends, so the payload may
hold anything, also digits at its beginning and further signs.

- `CutAt` is a list cut at the first place where something stands.
- `encodeParameterBlock_of_cut` is the block of a text that is cut at its first sign.
- `readsBack_of_encoded` reads the lead and the payload of a block, and so
  `encodeParameterBlock_injective` tells its text.
- `parameterBlock_readsBack` is all of it together.
-/

namespace ScpiScript.Block

/-! ## The first sign -/

section CutAt

variable {α : Type} {sep : α} {xs front back : List α}

/-- A list is cut at the first place where `sep` stands. -/
structure CutAt (sep : α) (xs front back : List α) : Prop where
  eq_append : xs = front ++ sep :: back
  notMem : sep ∉ front

theorem exists_cutAt_iff : (∃ front back, CutAt sep xs front back) ↔ sep ∈ xs := by
  constructor
  · rintro ⟨front, back, rfl, -⟩
    exact List.mem_append_right _ List.mem_cons_self
  · intro h
    obtain ⟨front, back, heq, hfront⟩ := List.eq_append_cons_of_mem h
    exact ⟨front, back, heq, hfront⟩

variable [DecidableEq α]

theorem decide_ne_of_notMem (h : sep ∉ xs) : ∀ x ∈ xs, decide (x ≠ sep) = true := by
  intro x hx
  rw [decide_eq_true_eq]
  rintro rfl
  exact h hx

theorem CutAt.takeWhile_eq (h : CutAt sep xs front back) :
    xs.takeWhile (· ≠ sep) = front := by
  rw [h.eq_append, List.takeWhile_append_of_pos (decide_ne_of_notMem h.notMem),
    List.takeWhile_cons_of_neg (by simp), List.append_nil]

theorem CutAt.dropWhile_eq (h : CutAt sep xs front back) :
    xs.dropWhile (· ≠ sep) = sep :: back := by
  have happend := List.takeWhile_append_dropWhile (p := (· ≠ sep)) (l := xs)
  rw [h.takeWhile_eq, h.eq_append] at happend
  rw [h.eq_append]
  exact List.append_cancel_left happend

theorem dropWhile_of_notMem (h : sep ∉ xs) : xs.dropWhile (· ≠ sep) = [] :=
  List.dropWhile_eq_nil_iff.mpr (decide_ne_of_notMem h)

/-- There is one way to cut a list so. -/
theorem CutAt.unique {front' back' : List α} (h : CutAt sep xs front back)
    (h' : CutAt sep xs front' back') : front = front' ∧ back = back' := by
  constructor
  · rw [← h.takeWhile_eq, h'.takeWhile_eq]
  · have hdrop := h.dropWhile_eq
    rw [h'.dropWhile_eq] at hdrop
    exact (List.cons.inj hdrop).2.symm

end CutAt

/-! ## Writing a block -/

variable {text encoded : String} {lead payload : List Char}

theorem encodeParameterBlock_of_notMem (h : lengthSign ∉ text.toList) :
    encodeParameterBlock text = .ok none := by
  simp only [encodeParameterBlock, dropWhile_of_notMem h]

theorem encodeParameterBlock_of_cut (h : CutAt lengthSign text.toList lead payload) :
    encodeParameterBlock text = (lengthPrefix payload.length).map fun written =>
      some (String.ofList (lead ++ lengthSign :: (written ++ payload))) := by
  simp only [encodeParameterBlock, h.takeWhile_eq, h.dropWhile_eq, List.append_assoc,
    List.cons_append]

theorem encodeParameterBlock_eq_none_iff :
    encodeParameterBlock text = .ok none ↔ lengthSign ∉ text.toList := by
  constructor
  · intro hnone hmem
    obtain ⟨lead, payload, hcut⟩ := exists_cutAt_iff.mpr hmem
    rw [encodeParameterBlock_of_cut hcut] at hnone
    obtain ⟨written, -, hblock⟩ := map_eq_ok_iff.mp hnone
    cases hblock
  · exact encodeParameterBlock_of_notMem

/-- A block is refused only for a payload that is too long, and for each such payload. -/
theorem encodeParameterBlock_eq_error_iff {e : BlockError} :
    encodeParameterBlock text = .error e ↔
      ∃ lead payload, CutAt lengthSign text.toList lead payload ∧ maxLength < payload.length ∧
        e = .lengthOverflow payload.length := by
  constructor
  · intro herror
    by_cases hmem : lengthSign ∈ text.toList
    · obtain ⟨lead, payload, hcut⟩ := exists_cutAt_iff.mpr hmem
      rw [encodeParameterBlock_of_cut hcut, map_eq_error_iff] at herror
      exact ⟨lead, payload, hcut, lengthPrefix_eq_error_iff.mp herror⟩
    · rw [encodeParameterBlock_of_notMem hmem] at herror
      cases herror
  · rintro ⟨lead, payload, hcut, hlarge, rfl⟩
    rw [encodeParameterBlock_of_cut hcut, map_eq_error_iff]
    exact lengthPrefix_of_lt hlarge

/-! ## Reading it back -/

/-- A block holds the lead, and behind its first sign a count and the payload that it counts. -/
def ReadsBack (encoded : String) (lead payload : List Char) : Prop :=
  ∃ counted used, CutAt lengthSign encoded.toList lead counted ∧
    readLengthPrefix? counted = some (payload.length, used) ∧
    (Utf8.encode (String.ofList counted)).drop used = Utf8.encode (String.ofList payload)

theorem ReadsBack.unique {lead' payload' : List Char} (h : ReadsBack encoded lead payload)
    (h' : ReadsBack encoded lead' payload') : lead = lead' ∧ payload = payload' := by
  obtain ⟨counted, used, hcut, hread, hdrop⟩ := h
  obtain ⟨counted', used', hcut', hread', hdrop'⟩ := h'
  obtain ⟨rfl, rfl⟩ := hcut.unique hcut'
  refine ⟨rfl, ?_⟩
  rw [hread, Option.some_inj] at hread'
  obtain ⟨-, rfl⟩ := Prod.mk.inj hread'
  rw [hdrop] at hdrop'
  exact String.ofList_inj.mp (Utf8.encode_injective hdrop')

theorem readsBack_of_written (hcut : CutAt lengthSign text.toList lead payload)
    {written : List Char} (hwritten : lengthPrefix payload.length = .ok written) :
    ReadsBack (String.ofList (lead ++ lengthSign :: (written ++ payload))) lead payload := by
  refine ⟨written ++ payload, written.length, ⟨String.toList_ofList, hcut.notMem⟩,
    readLengthPrefix?_append hwritten payload, ?_⟩
  rw [String.ofList_append, Utf8.encode_append, ← length_encode_written hwritten, List.drop_left]

/-- What is read from a block is what was written. -/
theorem readsBack_of_encoded (h : encodeParameterBlock text = .ok (some encoded)) :
    ∃ lead payload, CutAt lengthSign text.toList lead payload ∧ ReadsBack encoded lead payload := by
  by_cases hmem : lengthSign ∈ text.toList
  · obtain ⟨lead, payload, hcut⟩ := exists_cutAt_iff.mpr hmem
    rw [encodeParameterBlock_of_cut hcut] at h
    obtain ⟨written, hwritten, hblock⟩ := map_eq_ok_iff.mp h
    obtain rfl := Option.some.inj hblock
    exact ⟨lead, payload, hcut, readsBack_of_written hcut hwritten⟩
  · rw [encodeParameterBlock_of_notMem hmem] at h
    cases h

theorem encodeParameterBlock_injective {text' : String}
    (h : encodeParameterBlock text = .ok (some encoded))
    (h' : encodeParameterBlock text' = .ok (some encoded)) : text = text' := by
  obtain ⟨lead, payload, hcut, hread⟩ := readsBack_of_encoded h
  obtain ⟨lead', payload', hcut', hread'⟩ := readsBack_of_encoded h'
  obtain ⟨rfl, rfl⟩ := hread.unique hread'
  exact String.toList_inj.mp (hcut.eq_append.trans hcut'.eq_append.symm)

/-- A text without a hash sign has no block, and one whose payload behind the first sign has
too many characters is refused. The block of any other text has the same lead up to its first
sign, behind it the number of characters of the payload, and behind the bytes of that prefix
the payload as it was. So no two texts have the same block. -/
theorem parameterBlock_readsBack (text : String) :
    (encodeParameterBlock text = .ok none ↔ lengthSign ∉ text.toList) ∧
    (∀ n, encodeParameterBlock text = .error (.lengthOverflow n) ↔
      ∃ lead payload, CutAt lengthSign text.toList lead payload ∧ payload.length = n ∧
        maxLength < n) ∧
    (∀ lead payload, CutAt lengthSign text.toList lead payload → payload.length ≤ maxLength →
      ∃ encoded, encodeParameterBlock text = .ok (some encoded) ∧
        ReadsBack encoded lead payload) ∧
    ∀ text' encoded, encodeParameterBlock text = .ok (some encoded) →
      encodeParameterBlock text' = .ok (some encoded) → text' = text := by
  refine ⟨encodeParameterBlock_eq_none_iff, fun n => ?_, fun lead payload hcut hsmall => ?_,
    fun text' encoded h h' => encodeParameterBlock_injective h' h⟩
  · rw [encodeParameterBlock_eq_error_iff]
    constructor
    · rintro ⟨lead, payload, hcut, hlarge, hlength⟩
      obtain rfl := BlockError.lengthOverflow.inj hlength
      exact ⟨lead, payload, hcut, rfl, hlarge⟩
    · rintro ⟨lead, payload, hcut, rfl, hlarge⟩
      exact ⟨lead, payload, hcut, hlarge, rfl⟩
  · have hwritten := lengthPrefix_of_le hsmall
    refine ⟨_, ?_, readsBack_of_written hcut hwritten⟩
    rw [encodeParameterBlock_of_cut hcut]
    exact map_eq_ok_iff.mpr ⟨_, hwritten, rfl⟩

end ScpiScript.Block
