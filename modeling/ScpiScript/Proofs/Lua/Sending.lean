import Mathlib
import ScpiScript.Lua.Machine
import ScpiScript.Lua.Chunk
import ScpiScript.Proofs.Lua.MethodCall
import ScpiScript.Proofs.Lua.Sequence
/-!
# Code that sends

Four pieces of code send a text, or a vector behind a lead text, by a method of the
instrument. Running one makes a single use of the instrument, and fails only if that does.

- `Sending` are the pieces of code, and `Sending.request` is the use that each makes.
- `Sending.read_code`: the code is a call of the method.
- `Memory.Bound` says what the names in the code stand for.
- `call_function` is what the method does, and `execute_code` what running the code does.
-/

namespace ScpiScript.Lua

/-- A way to send something by the instrument. -/
inductive Sending
  /-- The text `t` as a command. -/
  | command
  /-- The text `t` as a command, which is left open. -/
  | buffered
  /-- The text `t` with a counted parameter. -/
  | parameter
  /-- The vector `v` behind the text `l`. -/
  | block
  deriving DecidableEq, Repr

namespace Sending

/-- The code that sends. -/
def code : Sending → String
  | command => "arb:command(t)"
  | buffered => "arb:command(t, false)"
  | parameter => "arb:send_with_param_length(t)"
  | block => "arb:send_block(l, v)"

/-- The method that sends. -/
def method : Sending → String
  | command => "command"
  | buffered => "command"
  | parameter => "send_with_param_length"
  | block => "send_block"

/-- The function that the method is. -/
def function : Sending → Builtin
  | command => .command
  | buffered => .command
  | parameter => .sendParameter
  | block => .sendBlock

/-- What the method is given. -/
def arguments : Sending → List CallArgument
  | command => [.global "t"]
  | buffered => [.global "t", .constant (.bool false)]
  | parameter => [.global "t"]
  | block => [.global "l", .global "v"]

/-- What is asked of the instrument, for a text, a lead text and samples. -/
def request (text lead : String) (samples : List Binary32) : Sending → Request
  | command => .command text true
  | buffered => .command text false
  | parameter => .sendParameter text
  | block => .sendBlock lead samples

/-- The tokens of the code, on its one line. -/
def tokens : Sending → List Token
  | command => [.name "arb", .symbol ":", .name "command", .symbol "(", .name "t", .symbol ")"]
  | buffered =>
    [.name "arb", .symbol ":", .name "command", .symbol "(", .name "t", .symbol ",",
      .symbol "false", .symbol ")"]
  | parameter =>
    [.name "arb", .symbol ":", .name "send_with_param_length", .symbol "(", .name "t",
      .symbol ")"]
  | block =>
    [.name "arb", .symbol ":", .name "send_block", .symbol "(", .name "l", .symbol ",",
      .name "v", .symbol ")"]

/-- A token that stands in the code as it is. -/
def lexeme : Token → Lexeme
  | .name text => ⟨.name text, 1, text.toList⟩
  | .symbol text => ⟨.symbol text, 1, text.toList⟩
  | token => ⟨token, 1, []⟩

theorem lexemes_code (s : Sending) :
    Token.lexemes (Utf8.encode s.code) = (s.tokens ++ [Token.ending]).map lexeme := by
  cases s <;> decide +kernel

set_option maxRecDepth 4000 in
/-- The code is a call of the method with what it is given. -/
theorem read_code (s : Sending) (chunk : Bytes) :
    Chunk.read chunk (Utf8.encode s.code) 0 =
      .ok (methodCall chunk "arb" s.method s.arguments) := by
  unfold Chunk.read
  rw [lexemes_code]
  cases s <;> cbv

theorem instrumentFunction?_method (s : Sending) :
    Operation.instrumentFunction? (Utf8.encode s.method) = some s.function := by
  cases s <;> decide

theorem code_ne_empty (s : Sending) : s.code ≠ "" := by
  cases s <;> decide

end Sending

/-! ## What the names stand for -/

/-- The global variables that are sent stand for a text, a lead text and a vector, and
the instrument can be reached. -/
structure Memory.Bound (m : Memory) (text lead : String) (samples : List Binary32) : Prop where
  instrument : m.global "arb" = .instrument
  text : m.global "t" = .ofText text
  lead : m.global "l" = .ofText lead
  vector : m.HoldsVector (m.global "v") samples

section Bound

variable {m : Memory} {text lead : String} {samples : List Binary32}

theorem Memory.Bound.chunkMemory (h : m.Bound text lead samples) :
    (Thread.chunkMemory m).Bound text lead samples :=
  ⟨h.instrument, h.text, h.lead, h.vector.addCell _⟩

theorem Memory.Bound.sampled (h : m.Bound text lead samples) :
    (m.sampled (m.global "v")).Bound text lead samples where
  instrument := by rw [Memory.global_sampled, h.instrument]
  text := by rw [Memory.global_sampled, h.text]
  lead := by rw [Memory.global_sampled, h.lead]
  vector := by
    rw [Memory.global_sampled]
    exact h.vector.sampled

/-- The memory with a text, a lead text and a vector put under the names, as the scope binds
them. -/
def Memory.withSent (m : Memory) (text lead : String) (samples : List Binary32) : Memory :=
  let (v, m) :=
    ((m.setGlobal "t" (.ofText text)).setGlobal "l" (.ofText lead)).addVector samples.toArray
  m.setGlobal "v" v

/-- The same with a table of values in place of the vector, as a constructor makes it. -/
def Memory.withTable (m : Memory) (text lead : String) (values : List Value) : Memory :=
  let (v, m) := ((m.setGlobal "t" (.ofText text)).setGlobal "l" (.ofText lead)).addTable
    ((Table.sized values.length 0).fill 0 values)
  m.setGlobal "v" v

/-- The names are bound to what is put under them, whatever else is added meanwhile. -/
theorem Memory.HasGlobals.bound_of_added (h : m.HasGlobals)
    (hinstrument : m.global "arb" = .instrument) {added : Memory} (hadded : added.HasGlobals)
    (hkept : ∀ name, added.global name =
      ((m.setGlobal "t" (.ofText text)).setGlobal "l" (.ofText lead)).global name) {v : Value}
    (hv : (added.setGlobal "v" v).HoldsVector v samples) :
    (added.setGlobal "v" v).Bound text lead samples := by
  have hglobal : ∀ name, (added.setGlobal "v" v).global name =
      if name = "v" then v
      else if name = "l" then .ofText lead
      else if name = "t" then .ofText text
      else m.global name := by
    intro name
    rw [global_setGlobal hadded, hkept, global_setGlobal (h.setGlobal _ _), global_setGlobal h]
  refine ⟨(hglobal "arb").trans hinstrument, hglobal "t", hglobal "l", ?_⟩
  rw [hglobal "v", if_pos rfl]
  exact hv

theorem Memory.HasGlobals.bound_withSent (h : m.HasGlobals)
    (hinstrument : m.global "arb" = .instrument) (text lead : String)
    (samples : List Binary32) : (m.withSent text lead samples).Bound text lead samples := by
  have hvector : (m.withSent text lead samples).vector m.vectors.size = samples.toArray :=
    vector_addVector_size _ _
  have hholds := HoldsVector.vector (m := m.withSent text lead samples) m.vectors.size
  rw [hvector] at hholds
  exact h.bound_of_added hinstrument (((h.setGlobal "t" _).setGlobal "l" _).addVector _)
    (global_addVector _ _) hholds

/-- A table without a hole will do for the vector, if numbers are all it holds. -/
theorem Memory.HasGlobals.bound_withTable (h : m.HasGlobals)
    (hinstrument : m.global "arb" = .instrument) (text lead : String) {values : List Value}
    (hvalues : .nil ∉ values) (hlt : values.length < Layout.sequenceLimit)
    (hsamples : ((Table.sized values.length 0).fill 0 values).samples? = some samples) :
    (m.withTable text lead values).Bound text lead samples := by
  have htexts : ((m.setGlobal "t" (.ofText text)).setGlobal "l" (.ofText lead)).HasGlobals :=
    (h.setGlobal "t" _).setGlobal "l" _
  have htable : (m.withTable text lead values).table
      ((m.setGlobal "t" (.ofText text)).setGlobal "l" (.ofText lead)).tables.size =
      (Table.sized values.length 0).fill 0 values := by
    show ((Memory.addTable _ _).2.setGlobal "v" _).table _ = _
    rw [table_setGlobal_of_ne (Nat.ne_of_gt htexts), table_addTable_size]
  have hholds : (m.withTable text lead values).HoldsVector
      (.table ((m.setGlobal "t" (.ofText text)).setGlobal "l" (.ofText lead)).tables.size)
      samples := by
    refine .table (n := values.length) ?_ ?_
    · rw [htable]
      exact Table.isSequence_fill 0 hvalues hlt
    · rw [htable]
      exact hsamples
  exact h.bound_of_added hinstrument (htexts.addTable _) (global_addTable _ htexts) hholds

theorem textArgument_ofText {arguments : List Value} {i : Nat} {text : String}
    (h : argument arguments i = .ofText text) : textArgument arguments i = pure text := by
  have htext : (Value.ofText text).toText? = some text :=
    congrArg some (Utf8.decodeLossy_encode text)
  unfold textArgument
  rw [h, htext]

/-- What reads the memory goes on with it. -/
theorem run_get_bind {α : Type} (f : Memory → LuaM α) (m : Memory) :
    ((get : LuaM Memory) >>= f).run m = (f m).run m := rfl

theorem vectorArgument_eq {arguments : List Value} (f : String)
    (h : m.HoldsVector (argument arguments 2) samples) :
    (vectorArgument f arguments).run m = .done (.ok samples, m.sampled (argument arguments 2)) := by
  unfold vectorArgument
  dsimp only
  rw [run_get_bind, h.samples?_eq]
  rfl

/-! ## Running the code -/

/-- What the call gives for an answer: its results, or the failure of the instrument. -/
def Sending.results : (s : Sending) → (s.request text lead samples).Answer →
    Except Fault (List Value)
  | .command, answer => (answer.map fun _ => []).mapError .instrument
  | .buffered, answer => (answer.map fun _ => []).mapError .instrument
  | .parameter, answer => (answer.map fun sent => [.bool sent]).mapError .instrument
  | .block, answer => (answer.map fun _ => []).mapError .instrument

/-- The memory after the call. -/
def Sending.memoryAfter (m : Memory) : Sending → Memory
  | .block => m.sampled (m.global "v")
  | _ => m

theorem Memory.Bound.memoryAfter (h : m.Bound text lead samples) (s : Sending) :
    (s.memoryAfter m).Bound text lead samples := by
  cases s with
  | block => exact h.sampled
  | _ => exact h

theorem Sending.instrument_of_results (s : Sending)
    {answer : (s.request text lead samples).Answer} {fault : Fault}
    (h : s.results answer = .error fault) : ∃ cause, fault = .instrument cause := by
  cases s <;> rcases answer with cause | _ <;>
    first | exact ⟨cause, (Except.error.inj h).symm⟩ | cases h

/-- The function asks just for what is sent. -/
theorem call_function (h : m.Bound text lead samples) (s : Sending) :
    (s.function.call (.instrument :: s.arguments.map (CallArgument.value m))).run m =
      .ask (s.request text lead samples) fun answer =>
        .done (s.results answer, s.memoryAfter m) := by
  -- the arguments are taken first, then the results follow the answer
  have htext : ∀ behind, textArgument (.instrument :: m.global "t" :: behind) 1 = pure text :=
    fun _ => textArgument_ofText h.text
  have hlead : ∀ behind, textArgument (.instrument :: m.global "l" :: behind) 1 = pure lead :=
    fun _ => textArgument_ofText h.lead
  cases s with
  | command =>
    show ExceptT.run (Builtin.call .command [.instrument, m.global "t"]) m = _
    unfold Builtin.call
    rw [htext]
    refine congrArg (Dialogue.ask (.command text true)) (funext fun answer => ?_)
    cases answer <;> rfl
  | buffered =>
    show ExceptT.run (Builtin.call .command [.instrument, m.global "t", .bool false]) m = _
    unfold Builtin.call
    rw [htext]
    refine congrArg (Dialogue.ask (.command text false)) (funext fun answer => ?_)
    cases answer <;> rfl
  | parameter =>
    show ExceptT.run (Builtin.call .sendParameter [.instrument, m.global "t"]) m = _
    unfold Builtin.call
    rw [htext]
    refine congrArg (Dialogue.ask (.sendParameter text)) (funext fun answer => ?_)
    cases answer <;> rfl
  | block =>
    have hvector : (vectorArgument "send_block" [.instrument, m.global "l", m.global "v"]).run m =
        .done (.ok samples, m.sampled (m.global "v")) := vectorArgument_eq "send_block" h.vector
    show ExceptT.run (Builtin.call .sendBlock [.instrument, m.global "l", m.global "v"]) m = _
    unfold Builtin.call
    rw [hlead]
    show Dialogue.bind ((vectorArgument "send_block" _).run m) _ = _
    rw [hvector]
    refine congrArg (Dialogue.ask (.sendBlock lead samples)) (funext fun answer => ?_)
    cases answer <;> rfl

/-- How the code ends for an answer. -/
def Sending.outcome (m : Memory) (s : Sending) (answer : (s.request text lead samples).Answer) :
    Except EvalError Unit :=
  ((s.results answer).mapError
    (Machine.evalError (s.memoryAfter (Thread.chunkMemory m)))).map fun _ => ()

/-- The code fails at most with a message. -/
theorem Sending.outcome_cases (m : Memory) (s : Sending)
    (answer : (s.request text lead samples).Answer) :
    s.outcome m answer = .ok () ∨ ∃ message, s.outcome m answer = .error (.failure message) := by
  unfold Sending.outcome
  rcases hresults : s.results answer with fault | values
  · obtain ⟨cause, rfl⟩ := s.instrument_of_results hresults
    exact .inr ⟨_, rfl⟩
  · exact .inl rfl

/-- Running the code asks just for what is sent, and leaves the names bound to the same. -/
theorem execute_code (h : m.Bound text lead samples) (s : Sending) {chunk : String}
    (hname : Machine.zeroByte? chunk = none) :
    Engine.execute (Machine.mk m) s.code chunk =
      .ask (s.request text lead samples) fun answer =>
        .done (s.outcome m answer, ⟨s.memoryAfter (Thread.chunkMemory m)⟩) := by
  have hread : Machine.read s.code chunk =
      .ok (methodCall (Machine.shownName chunk) "arb" s.method s.arguments) := by
    unfold Machine.read
    rw [s.read_code]
    rfl
  have hrun : Thread.run m (methodCall (Machine.shownName chunk) "arb" s.method s.arguments) =
      .ask (s.request text lead samples) fun answer =>
        .done ((s.results answer).map fun _ => [], s.memoryAfter (Thread.chunkMemory m)) := by
    rw [Thread.run_methodCall _ _ h.instrument s.instrumentFunction?_method
        (by cases s <;> decide), call_function h.chunkMemory s]
    rfl
  show Machine.execute ⟨m⟩ s.code chunk = _
  unfold Machine.execute
  rw [hname]
  dsimp only
  rw [hread]
  dsimp only
  unfold Machine.runChunk
  rw [hrun]
  refine congrArg (Dialogue.ask _) (funext fun answer => ?_)
  dsimp only [Sending.outcome, Dialogue.done_bind]
  cases s.results answer <;> rfl

end Bound

end ScpiScript.Lua
