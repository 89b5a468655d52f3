import ScpiScript.Lua.Machine
import ScpiScript.Proofs.Lua.Memory
import ScpiScript.Proofs.Reference.Tail
import ScpiScript.Proofs.Scope.WholeNumber
/-!
# Integers in commands

A number of the language is put into a command by way of a floating-point number, an integer
too. Up to the size that the format holds without rounding the command is the one that joining
the texts gives; larger integers are written as one that the same number is nearest to.

- `textOf_integer` is the text of a global variable that holds an integer.
- `concat_integer` joins an integer to a text, as the language does it.
- `Machine.substitute_integer` compares the two.
-/

namespace ScpiScript.Lua

open Reference

/-- An integer is joined to a text as its digits. -/
theorem Operation.concat_integer (lead : String) (i : Int64) (a b : Origin) :
    concat ⟨.ofText lead, a⟩ ⟨.number (.int i), b⟩ =
      .ok (.ofText (lead ++ integerText i.toInt)) := by
  show Except.ok (Value.str (Utf8.encode lead ++ Utf8.encode (integerText i.toInt))) = _
  rw [← Utf8.encode_append]
  rfl

namespace Machine

variable {m : Memory} {name : String} {i : Int64}

/-- A global variable that holds an integer has the text of the number nearest to it. -/
theorem textOf_integer (h : m.global name = .number (.int i)) :
    Scope.textOf (Machine.mk m) name = .ok (numberText (.ofInt i.toInt)) := by
  have hlookup : Scope.lookup (Machine.mk m) name = some (.number (.ofInt i.toInt)) := by
    show scopeValue m (m.global name) = _
    rw [h]
    rfl
  rw [Scope.textOf, hlookup]
  rfl

theorem natAbs_toInt_le (i : Int64) : i.toInt.natAbs ≤ Nat.pow 2 63 := by
  have hlow := Int64.le_toInt i
  have hhigh := Int64.toInt_lt i
  have hpower : Nat.pow 2 63 = 9223372036854775808 := rfl
  omega

/-- A reference to a global variable that holds an integer is replaced by the digits of an
integer, with a minus sign before those of a negative one, that the same floating-point number
is nearest to. Up to the largest integer below which the format holds all, it is the integer
itself, and the text is the one that joining the integer to the text before it gives. -/
theorem substitute_integer (h : m.global name = .number (.int i)) :
    ∃ d : Int, Scope.textOf (Machine.mk m) name = .ok (integerText d) ∧
      Binary64.ofInt d = Binary64.ofInt i.toInt ∧
      (i.toInt.natAbs ≤ Binary64.exactLimit → d = i.toInt) ∧
      ∀ text rest lead, EndsIn text rest name →
        substitute (Scope.textOf (Machine.mk m)) rest = .ok lead →
        substitute (Scope.textOf (Machine.mk m)) text = .ok (lead ++ integerText d) ∧
          (i.toInt.natAbs ≤ Binary64.exactLimit → ∀ a b,
            Operation.concat ⟨.ofText lead, a⟩ ⟨.number (.int i), b⟩ =
              .ok (.ofText (lead ++ integerText d))) := by
  obtain ⟨d, htext, hnearest, hexact⟩ := numberText_ofInt (natAbs_toInt_le i)
  have hname := (textOf_integer h).trans (congrArg Except.ok htext)
  refine ⟨d, hname, hnearest, hexact, fun text rest lead hends hlead => ⟨?_, fun hsize a b => ?_⟩⟩
  · rw [substitute_of_endsIn hends, hlead, hname]
    rfl
  · rw [hexact hsize]
    exact Operation.concat_integer lead i a b

/-- The engine at the start with an integer bound to the name `i`. -/
def withInteger (i : Int64) : Memory :=
  (Memory.initial ⟨[], []⟩ "").setGlobal "i" (.number (.int i))

/-- The integer -25 in a command. -/
theorem substitute_integer_small :
    (withInteger (-25)).global "i" = .number (.int (-25)) ∧
      substitute (Scope.textOf (Machine.mk (withInteger (-25)))) "VOLT {i}" = .ok "VOLT -25" ∧
      ∀ a b, Operation.concat ⟨.ofText "VOLT ", a⟩ ⟨.number (.int (-25)), b⟩ =
        .ok (.ofText "VOLT -25") := by
  have hglobal : (withInteger (-25)).global "i" = .number (.int (-25)) := by decide +kernel
  have hends : EndsIn "VOLT {i}" "VOLT " "i" :=
    ⟨by decide, by decide, List.all_eq_true.mp (by decide)⟩
  have hlead := substitute_of_notMem (Scope.textOf (Machine.mk (withInteger (-25))))
    (by decide : '{' ∉ "VOLT ".toList)
  obtain ⟨d, -, -, hexact, hsubstitute⟩ := substitute_integer hglobal
  obtain ⟨htext, hconcat⟩ := hsubstitute _ _ _ hends hlead
  obtain rfl := hexact (by decide)
  exact ⟨hglobal, htext, hconcat (by decide)⟩

/-- A reference to the first integer that is not held exactly is replaced by the digits of the
one before it, though joining it to a text keeps it. -/
theorem beyondLimit_rounded :
    (withInteger 9007199254740993).global "i" = .number (.int 9007199254740993) ∧
      Scope.lookup (Machine.mk (withInteger 9007199254740993)) "i" =
        some (.number (.ofInt 9007199254740993)) ∧
      numberText (.ofInt 9007199254740993) = "9007199254740992" ∧
      substitute (Scope.textOf (Machine.mk (withInteger 9007199254740993))) "{i}" =
        .ok "9007199254740992" ∧
      Operation.concat ⟨.ofText "", .unknown⟩ ⟨.number (.int 9007199254740993), .unknown⟩ =
        .ok (.ofText "9007199254740993") := by
  refine ⟨by decide +kernel, by decide +kernel, by decide +kernel, by decide +kernel, ?_⟩
  rw [Operation.concat_integer]
  congr 1

end Machine

end ScpiScript.Lua
