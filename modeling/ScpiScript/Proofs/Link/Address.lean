import Mathlib.Data.List.Forall2
import ScpiScript.Link.Address
import ScpiScript.Proofs.Block.Parameter
import ScpiScript.Proofs.Decimal.Numeral
import ScpiScript.Proofs.Text.Decoding
/-!
# The grammar of addresses

An address is the word for the dry run, a resource of parts between double colons, a host and a
port behind a colon, or a host alone. Nothing else is one, and a text is no more than one of
them.

- `SplitsInto` cuts a text at its double colons, from the left.
- `InAnyCase`, `IsBoard` and `IsPort` are the forms of the parts.
- `Denotes` is the grammar, and `ofText?_eq_some_iff` that exactly its addresses are read.
- `Spells` are the ways to write a host with a port, and `ofText?_grammar` adds that they are
  all read as the same address.
-/

namespace ScpiScript.Address

open Text Block

/-! ## Words in any case -/

/-- The characters of a small word, each of them small or capital. -/
def InAnyCase (word : String) (cs : List Char) : Prop :=
  List.Forall₂ (fun letter c => c = letter ∨ c = letter.toUpper) word.toList cs

instance (word : String) (cs : List Char) : Decidable (InAnyCase word cs) :=
  inferInstanceAs (Decidable (List.Forall₂ _ _ _))

section Letter

variable {letter : Char}

theorem bounds_of_isLower (h : letter.isLower = true) :
    97 ≤ letter.toNat ∧ letter.toNat ≤ 122 := by
  change (decide ('a'.val ≤ letter.val) && decide (letter.val ≤ 'z'.val)) = true at h
  rw [Bool.and_eq_true, decide_eq_true_eq, decide_eq_true_eq] at h
  exact ⟨UInt32.le_iff_toNat_le.mp h.1, UInt32.le_iff_toNat_le.mp h.2⟩

theorem toNat_toUpper (h : letter.isLower = true) : letter.toUpper.toNat = letter.toNat - 32 := by
  have hbounds : 97 ≤ letter.val.toNat ∧ letter.val.toNat ≤ 122 := bounds_of_isLower h
  have hlower : 'a'.val ≤ letter.val ∧ letter.val ≤ 'z'.val :=
    ⟨UInt32.le_iff_toNat_le.mpr hbounds.1, UInt32.le_iff_toNat_le.mpr hbounds.2⟩
  have hupper : letter.toUpper.val = letter.val + ('A'.val - 'a'.val) := by
    delta Char.toUpper
    rw [dif_pos hlower]
  have hshift : ('A'.val - 'a'.val).toNat = 2 ^ 32 - 32 := by decide
  show letter.toUpper.val.toNat = letter.val.toNat - 32
  rw [hupper, UInt32.toNat_add, hshift]
  omega

/-- Two characters are made the same small letter: the letter itself and its capital. -/
theorem lowerAscii_eq_iff (h : letter.isLower = true) (c : Char) :
    lowerAscii c = letter ↔ c = letter ∨ c = letter.toUpper := by
  have hbounds := bounds_of_isLower h
  have hcapital : ('A' ≤ c && c ≤ 'Z') = true ↔ 65 ≤ c.toNat ∧ c.toNat ≤ 90 := by
    rw [Bool.and_eq_true, decide_eq_true_eq, decide_eq_true_eq]
    exact and_congr UInt32.le_iff_toNat_le UInt32.le_iff_toNat_le
  rw [← Char.toNat_inj, ← Char.toNat_inj, ← Char.toNat_inj, toNat_toUpper h]
  unfold lowerAscii
  split
  · rename_i hc
    rw [hcapital] at hc
    rw [Utf8.toNat_ofNat_lt (by omega)]
    omega
  · rename_i hc
    rw [hcapital] at hc
    omega

end Letter

section Word

variable {word : String} {cs : List Char}

theorem sameIgnoringCase_iff (h : word.toList.all Char.isLower = true) :
    sameIgnoringCase cs word.toList = true ↔ InAnyCase word cs := by
  rw [List.all_eq_true] at h
  rw [sameIgnoringCase, beq_iff_eq, InAnyCase]
  generalize word.toList = letters at h
  induction cs generalizing letters with
  | nil => cases letters <;> simp
  | cons c cs ih =>
    cases letters with
    | nil => simp
    | cons letter letters =>
      rw [List.forall_mem_cons] at h
      have hsmall : lowerAscii letter = letter := (lowerAscii_eq_iff h.1 letter).mpr (.inl rfl)
      rw [List.map_cons, List.map_cons, List.cons_eq_cons, hsmall, lowerAscii_eq_iff h.1,
        ih letters h.2, List.forall₂_cons]

theorem InAnyCase.bounds (hcs : InAnyCase word cs) (h : word.toList.all Char.isLower = true) :
    ∀ c ∈ cs, 65 ≤ c.toNat ∧ c.toNat ≤ 122 := by
  rw [List.all_eq_true] at h
  unfold InAnyCase at hcs
  generalize word.toList = letters at h hcs
  induction hcs with
  | nil => exact fun _ hc => absurd hc List.not_mem_nil
  | cons hc _ ih =>
    rw [List.forall_mem_cons] at h ⊢
    refine ⟨?_, ih h.2⟩
    have hletter := bounds_of_isLower h.1
    rcases hc with rfl | rfl
    · omega
    · rw [toNat_toUpper h.1]
      omega

end Word

/-! ## Boards and ports -/

/-- A board: its word in any case, then digits, if any. -/
def IsBoard (cs : List Char) : Prop :=
  ∃ front run, cs = front ++ run ∧ InAnyCase "tcpip" front ∧ ∀ c ∈ run, c.isDigit = true

/-- A port: a numeral with or without a plus sign, not too large. -/
def IsPort (cs : List Char) (n : Nat) : Prop :=
  ∃ run, (cs = run ∨ cs = '+' :: run) ∧ Decimal.IsNumeral run ∧ Decimal.value run = n ∧ n ≤ 65535

section Part

variable {cs : List Char} {n : Nat}

theorem isBoard_iff : isBoard cs = true ↔ IsBoard cs := by
  rw [isBoard, Bool.and_eq_true, sameIgnoringCase_iff (by decide), List.all_eq_true]
  constructor
  · rintro ⟨hfront, hrun⟩
    exact ⟨cs.take 5, cs.drop 5, (List.take_append_drop 5 cs).symm, hfront, hrun⟩
  · rintro ⟨front, run, rfl, hfront, hrun⟩
    have hlength : 5 = front.length := List.Forall₂.length_eq hfront
    rw [hlength, List.take_left, List.drop_left]
    exact ⟨hfront, hrun⟩

theorem readUpTo?_maxPort_iff : Decimal.readUpTo? maxPort cs = some n ↔ IsPort cs n :=
  Decimal.readUpTo?_eq_some_iff

/-- Characters without a colon or a blank among them. -/
def IsPlain (cs : List Char) : Prop := ':' ∉ cs ∧ ∀ c ∈ cs, isBlank c = false

theorem InAnyCase.isPlain {word : String} (hcs : InAnyCase word cs)
    (h : word.toList.all Char.isLower = true) : IsPlain cs := by
  have hbounds := hcs.bounds h
  refine ⟨fun hmem => ?_, fun c hc => isBlank_of_bounds ?_⟩
  · have hcolon : 65 ≤ ':'.toNat := (hbounds ':' hmem).1
    exact absurd hcolon (by decide)
  · have hc := hbounds c hc
    omega

theorem isPlain_of_isDigit (h : ∀ c ∈ cs, c.isDigit = true) : IsPlain cs := by
  refine ⟨fun hmem => absurd (h ':' hmem) (by decide), fun c hc => isBlank_of_bounds ?_⟩
  have hc := Decimal.bounds_of_isDigit (h c hc)
  omega

theorem IsPlain.append {front back : List Char} (hfront : IsPlain front) (hback : IsPlain back) :
    IsPlain (front ++ back) :=
  ⟨by rw [List.mem_append, not_or]; exact ⟨hfront.1, hback.1⟩,
    List.forall_mem_append.mpr ⟨hfront.2, hback.2⟩⟩

theorem IsBoard.isPlain (h : IsBoard cs) : IsPlain cs := by
  obtain ⟨front, run, rfl, hfront, hrun⟩ := h
  exact (hfront.isPlain (by decide)).append (isPlain_of_isDigit hrun)

theorem IsPort.isPlain (h : IsPort cs n) : IsPlain cs := by
  obtain ⟨run, hcs, hnumeral, -⟩ := h
  have hrun := isPlain_of_isDigit hnumeral.isDigit
  rcases hcs with rfl | rfl
  · exact hrun
  · have hplus : IsPlain ['+'] := ⟨by decide, List.forall_mem_singleton.mpr (by decide)⟩
    exact hplus.append hrun

theorem isPort_digits (h : n ≤ 65535) : IsPort (Decimal.digits n) n :=
  ⟨_, .inl rfl, Decimal.isNumeral_digits n, Decimal.value_digits n, h⟩

end Part

/-! ## Double colons -/

/-- A text cut at its double colons, each the first that is left. -/
inductive SplitsInto : List Char → List (List Char) → Prop
  | last {part : List Char} (h : ¬ [':', ':'] <:+: part) : SplitsInto part [part]
  | cut {part rest : List Char} {parts : List (List Char)}
      (h : ¬ [':', ':'] <:+: part ++ [':']) (hrest : SplitsInto rest parts) :
      SplitsInto (part ++ ':' :: ':' :: rest) (part :: parts)

section Split

variable {cs part rest : List Char} {parts : List (List Char)}

theorem prefix_cut (part rest : List Char) : part ++ [':'] <+: part ++ ':' :: ':' :: rest :=
  ⟨':' :: rest, by simp⟩

theorem splitDoubleColon_cons {c : Char} (h : ¬ [':', ':'] <+: c :: rest)
    (hrest : splitDoubleColon rest = part :: parts) :
    splitDoubleColon (c :: rest) = (c :: part) :: parts := by
  rw [splitDoubleColon, hrest]
  rintro back rfl rfl
  exact h (List.prefix_append [':', ':'] back)

/-- What holds no double colon is one part. -/
theorem splitDoubleColon_last (h : ¬ [':', ':'] <:+: part) : splitDoubleColon part = [part] := by
  induction part with
  | nil => rfl
  | cons c part ih =>
    rw [List.infix_cons_iff, not_or] at h
    exact splitDoubleColon_cons h.1 (ih h.2)

/-- The first part ends at the first double colon. -/
theorem splitDoubleColon_cut (h : ¬ [':', ':'] <:+: part ++ [':']) (rest : List Char) :
    splitDoubleColon (part ++ ':' :: ':' :: rest) = part :: splitDoubleColon rest := by
  induction part with
  | nil => rfl
  | cons c part ih =>
    rw [List.cons_append, List.infix_cons_iff, not_or] at h
    refine splitDoubleColon_cons (fun hopens => h.1 ?_) (ih h.2)
    -- a double colon at the beginning would reach no further than the first of these two
    exact List.prefix_of_prefix_length_le hopens (prefix_cut (c :: part) rest) (by simp)

theorem splitsInto_splitDoubleColon (cs : List Char) : SplitsInto cs (splitDoubleColon cs) := by
  fun_induction splitDoubleColon cs with
  | case1 => exact .last (by decide)
  | case2 rest ih => exact @SplitsInto.cut [] rest _ (by decide) ih
  | case3 c rest _ hnil ih =>
    rw [hnil] at ih
    cases ih
  | case4 c rest hstart part parts hparts ih =>
    rw [hparts] at ih
    have hopens : ¬ [':', ':'] <+: c :: rest := by
      rintro ⟨back, hback⟩
      cases hback
      exact hstart back rfl rfl
    cases ih with
    | last hpart =>
      refine .last ?_
      rw [List.infix_cons_iff, not_or]
      exact ⟨hopens, hpart⟩
    | @cut _ rest _ hpart hrest =>
      refine @SplitsInto.cut (c :: part) rest _ ?_ hrest
      rw [List.cons_append, List.infix_cons_iff, not_or]
      exact ⟨fun hfront => hopens (hfront.trans (prefix_cut (c :: part) rest)), hpart⟩

theorem splitDoubleColon_eq_iff : splitDoubleColon cs = parts ↔ SplitsInto cs parts := by
  constructor
  · rintro rfl
    exact splitsInto_splitDoubleColon cs
  · intro h
    induction h with
    | last h => exact splitDoubleColon_last h
    | cut h _ ih => rw [splitDoubleColon_cut h, ih]

/-- There is a second part exactly if there is a double colon. -/
theorem SplitsInto.one_lt_length_iff (h : SplitsInto cs parts) :
    1 < parts.length ↔ [':', ':'] <:+: cs := by
  cases h with
  | last h => exact iff_of_false (Nat.lt_irrefl 1) h
  | @cut part rest parts _ hrest =>
    refine iff_of_true ?_ ⟨part, rest, by simp⟩
    cases hrest <;> simp

theorem not_infix_of_count (h : cs.count ':' ≤ 1) : ¬ [':', ':'] <:+: cs := by
  intro hinfix
  have hcount : 2 ≤ cs.count ':' := hinfix.sublist.count_le ':'
  omega

theorem not_infix_of_notMem (h : ':' ∉ cs) : ¬ [':', ':'] <:+: cs :=
  not_infix_of_count (by rw [List.count_eq_zero.mpr h]; exact Nat.zero_le 1)

theorem SplitsInto.cut_of_notMem (h : ':' ∉ part) (hrest : SplitsInto rest parts) :
    SplitsInto (part ++ ':' :: ':' :: rest) (part :: parts) := by
  refine .cut (not_infix_of_count ?_) hrest
  rw [List.count_append, List.count_eq_zero.mpr h]
  decide

end Split

/-! ## The forms of an address -/

/-- A host that can stand alone. -/
structure IsHost (cs : List Char) : Prop where
  ne_nil : cs ≠ []
  noColon : ':' ∉ cs
  notBlank : ∀ c ∈ cs, isBlank c = false

/-- A resource: its parts are a board, a host, perhaps a port, and the word for a socket. -/
inductive IsResource (cs host : List Char) : Nat → Prop
  | withoutPort {board last : List Char} (hsplit : SplitsInto cs [board, host, last])
      (hboard : IsBoard board) (hhost : host ≠ []) (hlast : InAnyCase "socket" last) :
      IsResource cs host 5025
  | withPort {board port last : List Char} {n : Nat}
      (hsplit : SplitsInto cs [board, host, port, last])
      (hboard : IsBoard board) (hhost : host ≠ []) (hport : IsPort port n)
      (hlast : InAnyCase "socket" last) : IsResource cs host n

/-- A host and a port, cut at the last colon. -/
structure IsShort (cs host : List Char) (n : Nat) : Prop where
  noDouble : ¬ [':', ':'] <:+: cs
  notBlank : ∀ c ∈ cs, isBlank c = false
  ne_nil : host ≠ []
  cut : ∃ port, cs = host ++ ':' :: port ∧ ':' ∉ port ∧ IsPort port n

/-- What a text without blanks at its ends denotes. -/
inductive Denotes (cs : List Char) : Address → Prop
  | fake (h : InAnyCase "fake" cs) : Denotes cs .fake
  | resource {host : List Char} {n : Nat} (h : IsResource cs host n) :
      Denotes cs (.socket (String.ofList host) n)
  | short {host : List Char} {n : Nat} (h : IsShort cs host n) :
      Denotes cs (.socket (String.ofList host) n)
  | host (h : IsHost cs) (hfake : ¬ InAnyCase "fake" cs) :
      Denotes cs (.socket (String.ofList cs) 5025)

section Forms

variable {cs host : List Char} {n : Nat} {address : Address}

theorem resource?_eq_some_iff {board last : List Char} {port? : Option Nat} :
    ofParts?.resource? board host last port? = some address ↔
      IsBoard board ∧ InAnyCase "socket" last ∧ host ≠ [] ∧
        ∃ n, port? = some n ∧ .socket (String.ofList host) n = address := by
  rw [ofParts?.resource?, Option.ite_none_right_eq_some, Bool.and_eq_true, Bool.and_eq_true,
    isBoard_iff, sameIgnoringCase_iff (by decide), Bool.not_eq_true', List.isEmpty_eq_false_iff,
    Option.map_eq_some_iff, and_assoc, and_assoc]

/-- A resource has three parts at least. -/
theorem IsResource.infix (h : IsResource cs host n) : [':', ':'] <:+: cs := by
  cases h with
  | withoutPort hsplit => exact hsplit.one_lt_length_iff.mp (by simp)
  | withPort hsplit => exact hsplit.one_lt_length_iff.mp (by simp)

/-- The parts of a text are those of a resource, or the text is none. -/
theorem ofParts?_eq_some_iff :
    ofParts? (splitDoubleColon cs) = some address ↔
      ∃ host n, IsResource cs host n ∧ .socket (String.ofList host) n = address := by
  constructor
  · intro h
    unfold ofParts? at h
    split at h
    · rename_i board host last hparts
      obtain ⟨hboard, hlast, hhost, n, hn, rfl⟩ := resource?_eq_some_iff.mp h
      obtain rfl := Option.some.inj hn
      exact ⟨host, _, .withoutPort (splitDoubleColon_eq_iff.mp hparts) hboard hhost hlast, rfl⟩
    · rename_i board host port last hparts
      obtain ⟨hboard, hlast, hhost, n, hn, rfl⟩ := resource?_eq_some_iff.mp h
      have hport := readUpTo?_maxPort_iff.mp hn
      exact ⟨host, n, .withPort (splitDoubleColon_eq_iff.mp hparts) hboard hhost hport hlast, rfl⟩
    · cases h
  · rintro ⟨host, n, hresource, rfl⟩
    cases hresource with
    | withoutPort hsplit hboard hhost hlast =>
      rw [splitDoubleColon_eq_iff.mpr hsplit]
      exact resource?_eq_some_iff.mpr ⟨hboard, hlast, hhost, _, rfl, rfl⟩
    | withPort hsplit hboard hhost hport hlast =>
      rw [splitDoubleColon_eq_iff.mpr hsplit]
      exact resource?_eq_some_iff.mpr
        ⟨hboard, hlast, hhost, n, readUpTo?_maxPort_iff.mpr hport, rfl⟩

/-- A text is cut at its last colon if it is cut at the first one from behind. -/
theorem cutAt_reverse_iff {port : List Char} :
    CutAt ':' cs.reverse port.reverse host.reverse ↔ cs = host ++ ':' :: port ∧ ':' ∉ port := by
  have happend : (host ++ ':' :: port).reverse = port.reverse ++ ':' :: host.reverse := by simp
  constructor
  · rintro ⟨heq, hport⟩
    rw [← happend, List.reverse_inj] at heq
    exact ⟨heq, fun hmem => hport (List.mem_reverse.mpr hmem)⟩
  · rintro ⟨rfl, hport⟩
    exact ⟨happend, fun hmem => hport (List.mem_reverse.mp hmem)⟩

theorem isEmpty_or_any_isBlank (cs : List Char) :
    (cs.isEmpty || cs.any isBlank) = true ↔ ¬ (cs ≠ [] ∧ ∀ c ∈ cs, isBlank c = false) := by
  rw [Bool.or_eq_true, List.isEmpty_iff, List.any_eq_true, not_and_or, not_not]
  simp

theorem ofShort?_of_cut {port : List Char} (hcut : cs = host ++ ':' :: port) (hport : ':' ∉ port)
    (hblank : ∀ c ∈ cs, isBlank c = false) :
    ofShort? cs = if host.isEmpty then none else
      (Decimal.readUpTo? maxPort port).map fun n => .socket (String.ofList host) n := by
  have hback := cutAt_reverse_iff.mpr ⟨hcut, hport⟩
  have hnil : cs ≠ [] := by simp [hcut]
  rw [ofShort?, if_neg fun h => (isEmpty_or_any_isBlank cs).mp h ⟨hnil, hblank⟩]
  simp only [hback.takeWhile_eq, hback.dropWhile_eq, List.reverse_reverse, List.isEmpty_reverse]

theorem ofShort?_of_isHost (h : IsHost cs) :
    ofShort? cs = some (.socket (String.ofList cs) 5025) := by
  have hcolon : ':' ∉ cs.reverse := fun hmem => h.noColon (List.mem_reverse.mp hmem)
  rw [ofShort?, if_neg fun hrefused =>
    (isEmpty_or_any_isBlank cs).mp hrefused ⟨h.ne_nil, h.notBlank⟩]
  simp only [dropWhile_of_notMem hcolon]
  rfl

/-- A text without a double colon is a host with or without a port, or no address. -/
theorem ofShort?_eq_some_iff (hdouble : ¬ [':', ':'] <:+: cs) :
    ofShort? cs = some address ↔
      (IsHost cs ∧ .socket (String.ofList cs) 5025 = address) ∨
        ∃ host n, IsShort cs host n ∧ .socket (String.ofList host) n = address := by
  constructor
  · intro h
    obtain ⟨hnil, hblank⟩ : cs ≠ [] ∧ ∀ c ∈ cs, isBlank c = false := by
      by_contra hrefused
      rw [ofShort?, if_pos ((isEmpty_or_any_isBlank cs).mpr hrefused)] at h
      cases h
    by_cases hcolon : ':' ∈ cs
    · obtain ⟨front, back, hcut⟩ := exists_cutAt_iff.mpr (List.mem_reverse.mpr hcolon)
      rw [← front.reverse_reverse, ← back.reverse_reverse, cutAt_reverse_iff] at hcut
      rw [ofShort?_of_cut hcut.1 hcut.2 hblank, Option.ite_none_left_eq_some,
        Option.map_eq_some_iff, List.isEmpty_iff] at h
      obtain ⟨hhost, n, hread, rfl⟩ := h
      have hport := readUpTo?_maxPort_iff.mp hread
      exact .inr ⟨_, n, ⟨hdouble, hblank, hhost, _, hcut.1, hcut.2, hport⟩, rfl⟩
    · have hhost : IsHost cs := ⟨hnil, hcolon, hblank⟩
      rw [ofShort?_of_isHost hhost] at h
      exact .inl ⟨hhost, Option.some.inj h⟩
  · rintro (⟨hhost, rfl⟩ | ⟨host, n, ⟨-, hblank, hnil, port, hcut, hcolon, hport⟩, rfl⟩)
    · exact ofShort?_of_isHost hhost
    · rw [ofShort?_of_cut hcut hcolon hblank, List.isEmpty_eq_false_iff.mpr hnil,
        readUpTo?_maxPort_iff.mpr hport]
      rfl

end Forms

/-! ## Reading an address -/

section Read

variable {cs host : List Char} {n : Nat} {address : Address}

/-- The word for the dry run is no more than that. -/
theorem Denotes.eq_fake (h : Denotes cs address) (hfake : InAnyCase "fake" cs) :
    address = .fake := by
  have hcolon : ':' ∉ cs := (hfake.isPlain (by decide)).1
  cases h with
  | fake => rfl
  | resource h => exact absurd h.infix (not_infix_of_notMem hcolon)
  | short h =>
    obtain ⟨port, rfl, -⟩ := h.cut
    exact absurd (List.mem_append_right _ List.mem_cons_self) hcolon
  | host _ hother => exact absurd hfake hother

/-- Exactly the addresses of the grammar are read. -/
theorem ofText?_eq_some_iff {text : String} :
    ofText? text = some address ↔ Denotes (trimChars text.toList) address := by
  have hword : "fake".toList.all Char.isLower = true := by decide
  unfold ofText?
  generalize trimChars text.toList = cs
  have hlength := (splitsInto_splitDoubleColon cs).one_lt_length_iff
  -- the forms are tried in this order: the dry run, a double colon, the rest
  by_cases hfake : InAnyCase "fake" cs
  · rw [if_pos ((sameIgnoringCase_iff hword).mpr hfake), Option.some_inj]
    exact ⟨fun h => h ▸ .fake hfake, fun h => (h.eq_fake hfake).symm⟩
  · rw [if_neg (mt (sameIgnoringCase_iff hword).mp hfake)]
    by_cases hdouble : [':', ':'] <:+: cs
    · rw [if_pos (hlength.mpr hdouble), ofParts?_eq_some_iff]
      constructor
      · rintro ⟨host, n, hresource, rfl⟩
        exact .resource hresource
      · intro h
        cases h with
        | fake h => exact absurd h hfake
        | resource h => exact ⟨_, _, h, rfl⟩
        | short h => exact absurd hdouble h.noDouble
        | host h => exact absurd hdouble (not_infix_of_notMem h.noColon)
    · rw [if_neg (mt hlength.mp hdouble), ofShort?_eq_some_iff hdouble]
      constructor
      · rintro (⟨hhost, rfl⟩ | ⟨host, n, hshort, rfl⟩)
        · exact .host hhost hfake
        · exact .short hshort
      · intro h
        cases h with
        | fake h => exact absurd h hfake
        | resource h => exact absurd h.infix hdouble
        | short h => exact .inr ⟨_, _, h, rfl⟩
        | host h => exact .inl ⟨h, rfl⟩

/-! ## The ways to write a host and a port -/

/-- A host and a port in the short form, or as a resource with any board. The one port that
need not be named may be left out of a resource. -/
inductive Spells (host : List Char) : Nat → List Char → Prop
  | short {port : List Char} {n : Nat} (hport : IsPort port n) :
      Spells host n (host ++ ':' :: port)
  | withPort {board port last : List Char} {n : Nat} (hboard : IsBoard board)
      (hport : IsPort port n) (hlast : InAnyCase "socket" last) :
      Spells host n ([':', ':'].intercalate [board, host, port, last])
  | withoutPort {board last : List Char} (hboard : IsBoard board)
      (hlast : InAnyCase "socket" last) :
      Spells host 5025 ([':', ':'].intercalate [board, host, last])

/-- Parts without colons are those of the text that they are joined to. -/
theorem splitsInto_intercalate (part : List Char) (parts : List (List Char))
    (h : ∀ p ∈ part :: parts, ':' ∉ p) :
    SplitsInto ([':', ':'].intercalate (part :: parts)) (part :: parts) := by
  induction parts generalizing part with
  | nil =>
    rw [List.intercalate_singleton]
    exact .last (not_infix_of_notMem (h part List.mem_cons_self))
  | cons next parts ih =>
    rw [List.forall_mem_cons] at h
    rw [List.intercalate_cons_cons, List.append_assoc]
    exact (ih next h.2).cut_of_notMem h.1

theorem Spells.notBlank (h : Spells host n cs) (hhost : IsHost host) :
    ∀ c ∈ cs, isBlank c = false := by
  have hcolon : isBlank ':' = false := by decide
  have hcolons : ∀ c ∈ [':', ':'], isBlank c = false := by simp [hcolon]
  cases h with
  | short hport =>
    rw [List.forall_mem_append, List.forall_mem_cons]
    exact ⟨hhost.notBlank, by decide, hport.isPlain.2⟩
  | withPort hboard hport hlast =>
    have hword := (hlast.isPlain (by decide)).2
    simp only [List.intercalate_cons_cons, List.intercalate_singleton, List.forall_mem_append]
    exact ⟨⟨hboard.isPlain.2, hcolons⟩, ⟨hhost.notBlank, hcolons⟩,
      ⟨hport.isPlain.2, hcolons⟩, hword⟩
  | withoutPort hboard hlast =>
    have hword := (hlast.isPlain (by decide)).2
    simp only [List.intercalate_cons_cons, List.intercalate_singleton, List.forall_mem_append]
    exact ⟨⟨hboard.isPlain.2, hcolons⟩, ⟨hhost.notBlank, hcolons⟩, hword⟩

theorem Spells.denotes (h : Spells host n cs) (hhost : IsHost host) :
    Denotes cs (.socket (String.ofList host) n) := by
  have hblank := h.notBlank hhost
  cases h with
  | @short port _ hport =>
    have hcount : (host ++ ':' :: port).count ':' = 1 := by
      rw [List.count_append, List.count_cons_self, List.count_eq_zero.mpr hhost.noColon,
        List.count_eq_zero.mpr hport.isPlain.1]
    exact .short ⟨not_infix_of_count hcount.le, hblank, hhost.ne_nil, port, rfl,
      hport.isPlain.1, hport⟩
  | withPort hboard hport hlast =>
    refine .resource (.withPort (splitsInto_intercalate _ _ ?_) hboard hhost.ne_nil hport hlast)
    simp [hboard.isPlain.1, hhost.noColon, hport.isPlain.1, (hlast.isPlain (by decide)).1]
  | withoutPort hboard hlast =>
    refine .resource (.withoutPort (splitsInto_intercalate _ _ ?_) hboard hhost.ne_nil hlast)
    simp [hboard.isPlain.1, hhost.noColon, (hlast.isPlain (by decide)).1]

/-- Each way to write a host with a port is read as the two. -/
theorem Spells.ofText? (h : Spells host n cs) (hhost : IsHost host) :
    ofText? (String.ofList cs) = some (.socket (String.ofList host) n) := by
  have hblank := h.notBlank hhost
  have htrim : trimChars cs = cs :=
    trimChars_eq_self (fun c hc => hblank c (List.mem_of_head? hc))
      (fun c hc => hblank c (List.mem_of_getLast? hc))
  rw [ofText?_eq_some_iff, String.toList_ofList, htrim]
  exact h.denotes hhost

/-- An address without the blanks at its ends denotes what the grammar says, and nothing if the
grammar says nothing of it. All ways to write a host and a port denote the same. -/
theorem ofText?_grammar :
    (∀ text address, ofText? text = some address ↔ Denotes (trimChars text.toList) address) ∧
    ∀ host n cs, IsHost host → Spells host n cs →
      ofText? (String.ofList cs) = some (.socket (String.ofList host) n) :=
  ⟨fun _ _ => ofText?_eq_some_iff, fun _ _ _ hhost h => h.ofText? hhost⟩

/-- A plus sign, zeros in front and capitals make no difference. -/
theorem ofText?_grammar_bench :
    IsHost "bench".toList ∧ Denotes (trimChars " FaKe\t".toList) .fake ∧
      ofText? " FaKe\t" = some .fake ∧
      ofText? "bench:777" = some (.socket "bench" 777) ∧
      ofText? "tcpip0::bench::+0777::Socket" = some (.socket "bench" 777) := by
  have hblank : "bench".toList.all (!isBlank ·) = true := by decide
  have hhost : IsHost "bench".toList := ⟨by decide, by decide, by simpa using hblank⟩
  have hfake : Denotes (trimChars " FaKe\t".toList) .fake := .fake (by decide)
  have hboard : IsBoard "tcpip0".toList := isBoard_iff.mp (by decide)
  have hport : IsPort "+0777".toList 777 := readUpTo?_maxPort_iff.mp (by decide)
  have hlast : InAnyCase "socket" "Socket".toList := by decide
  refine ⟨hhost, hfake, (ofText?_grammar.1 _ _).mpr hfake, ?_, ?_⟩
  · exact ofText?_grammar.2 _ _ _ hhost (.short (@isPort_digits 777 (by decide)))
  · exact ofText?_grammar.2 _ _ _ hhost (.withPort hboard hport hlast)

end Read

end ScpiScript.Address
