import ScpiScript.Lua.Execution
/-!
# Chunks that call one method

A chunk that calls a method of the instrument with global variables and constants is carried
out step by step: the method is read, its arguments are put behind it, and the function of
the engine decides the rest.

- `Dialogue.bind_assoc` is the law of dialogues, `Thread.runFor_succ` how a run goes on.
- `Thread.inChunk` is a thread that runs a chunk and has called nothing yet, and the lemmas
  after it are what its instructions do.
- `Thread.run_methodCall`: such a chunk is the call of the function.
-/

namespace ScpiScript

namespace Dialogue

variable {α β γ : Type}

@[simp] theorem done_bind (a : α) (f : α → Dialogue β) : (done a).bind f = f a := rfl

@[simp] theorem ask_bind (request : Request) (next : request.Answer → Dialogue α)
    (f : α → Dialogue β) :
    (ask request next).bind f = ask request fun answer => (next answer).bind f := rfl

theorem bind_assoc (d : Dialogue α) (f : α → Dialogue β) (g : β → Dialogue γ) :
    (d.bind f).bind g = d.bind fun a => (f a).bind g := by
  induction d with
  | done a => rfl
  | ask request next ih =>
    rw [ask_bind, ask_bind, ask_bind]
    exact congrArg (ask request) (funext ih)

end Dialogue

namespace Lua

/-! ## Chunks -/

/-- What is given to a call: a global variable or a constant. -/
inductive CallArgument
  | global (name : String)
  | constant (value : Value)

namespace CallArgument

/-- The instruction that puts it in a register. -/
def instruction (dest : Nat) : CallArgument → Instruction
  | global name => .readOuterField dest 0 (Utf8.encode name)
  | constant value => .load dest value

/-- Its value. -/
def value (m : Memory) : CallArgument → Value
  | global name => m.global name
  | constant value => value

/-- The instructions that put arguments in registers, from one on. -/
def load : (dest : Nat) → List CallArgument → List Instruction
  | _, [] => []
  | dest, a :: rest => a.instruction dest :: load (dest + 1) rest

@[simp] theorem length_load (dest : Nat) (arguments : List CallArgument) :
    (load dest arguments).length = arguments.length := by
  induction arguments generalizing dest with
  | nil => rfl
  | cons a rest ih => rw [load, List.length_cons, List.length_cons, ih]

end CallArgument

/-- The instructions that put a method of a global variable in the first register, and the
object behind it. -/
def lookUp (name method : String) : List Instruction :=
  [.readOuterField 0 0 (Utf8.encode name), .readMethod 0 0 (.constant (.ofText method))]

/-- The instructions that call the function in the first register with so many values behind
it, and leave the chunk. -/
def callAndLeave (count : Nat) : List Instruction :=
  [.call 0 (some count) (some 0), .leave 0 (some 0)]

/-- The chunk that calls a method of a global variable. -/
def methodCall (chunk : Bytes) (name method : String) (arguments : List CallArgument) :
    Prototype where
  chunk := chunk
  code :=
    (lookUp name method ++ CallArgument.load 2 arguments ++
      callAndLeave (arguments.length + 1)).toArray
  lines := Array.replicate (arguments.length + 4) 1
  inner := #[]
  captures := #[⟨environmentName, true, 0⟩]
  allVariables := #[]
  parameters := 0
  size := arguments.length + 2

theorem code_methodCall (chunk : Bytes) (name method : String) (arguments : List CallArgument)
    (k : Nat) :
    (methodCall chunk name method arguments).code[2 + arguments.length + k]? =
      (callAndLeave (arguments.length + 1))[k]? := by
  have hlength : (lookUp name method ++ CallArgument.load 2 arguments).length =
      2 + arguments.length := by
    rw [List.length_append, CallArgument.length_load]
    rfl
  unfold methodCall
  rw [List.getElem?_toArray, List.getElem?_append_right (by rw [hlength]; exact Nat.le_add_right ..),
    hlength, Nat.add_sub_cancel_left]

namespace Thread

/-! ## Steps -/

/-- What a run does after a step, with so many instructions left. -/
def goOn (count : Nat) : Progress → Dialogue (Except Fault (List Value) × Memory)
  | .going t => runFor count t
  | .ended results memory => .done (.ok results, memory)
  | .failed fault memory => .done (.error fault, memory)

theorem runFor_succ (count : Nat) (t : Thread) :
    runFor (count + 1) t = t.step.bind (goOn count) := by
  rw [runFor]
  rcases t.step with progress | ⟨request, next⟩
  · cases progress <;> rfl
  · rfl

/-- A thread that runs a chunk and has called nothing, before one of its instructions. -/
def inChunk (m : Memory) (cell : Nat) (p : Prototype) (next : Nat) (registers : List Value) :
    Thread :=
  ⟨m, (List.replicate chunkBase Value.nil ++ registers).toArray, 0, [],
    ⟨⟨p, #[cell]⟩, chunkBase, 2, next, none⟩, []⟩

theorem grown_toArray (more : Nat) (values : List Value) :
    grown more values.toArray = (values ++ List.replicate more Value.nil).toArray := by
  induction more generalizing values with
  | zero => simp [grown]
  | succ more ih =>
    rw [grown, List.push_toArray, ih, List.append_assoc]
    rfl

/-- The memory in which a chunk runs. -/
def chunkMemory (m : Memory) : Memory := (m.addCell (.held (.table Memory.globalTable))).2

theorem start_eq (m : Memory) (p : Prototype) :
    start m p = inChunk (chunkMemory m) m.cells.size p 0 (List.replicate p.size Value.nil) := by
  have hstack : grown (chunkBase + p.size) #[] =
      (List.replicate chunkBase Value.nil ++ List.replicate p.size Value.nil).toArray := by
    rw [List.replicate_append_replicate]
    exact grown_toArray (chunkBase + p.size) []
  unfold start reserve inChunk
  dsimp only [Memory.addCell]
  rw [← hstack]
  rfl

section Steps

variable {m : Memory} {cell : Nat} {p : Prototype} {next : Nat} {registers : List Value}

theorem register_inChunk (r : Nat) :
    (inChunk m cell p next registers).register r = registers[r]?.getD .nil := by
  show (List.replicate chunkBase Value.nil ++ registers).toArray[chunkBase + r]?.getD _ = _
  rw [List.getElem?_toArray, List.getElem?_append_right (by simp)]
  simp

theorem setRegister_inChunk (r : Nat) (value : Value) :
    (inChunk m cell p next registers).setRegister r value =
      inChunk m cell p next (registers.set r value) := by
  have hstack : (List.replicate chunkBase Value.nil ++ registers).toArray.setIfInBounds
      (chunkBase + r) value =
      (List.replicate chunkBase Value.nil ++ registers.set r value).toArray := by
    rw [List.setIfInBounds_toArray, List.set_append_right _ _ (by simp)]
    simp
  unfold setRegister inChunk
  dsimp only
  rw [hstack]

theorem values_inChunk (front given : List Value) :
    (inChunk m cell p next (front ++ given)).values (chunkBase + front.length) given.length =
      given := by
  refine List.ext_getElem (by simp [values]) fun i hi hgiven => ?_
  have hregister : (inChunk m cell p next (front ++ given)).register (front.length + i) =
      given[i] := by
    rw [register_inChunk, List.getElem?_append_right (Nat.le_add_right ..),
      Nat.add_sub_cancel_left, List.getElem?_eq_getElem hgiven]
    rfl
  rw [← hregister]
  simp [values, register, inChunk, Nat.add_assoc]

theorem step_inChunk {i : Instruction} (h : p.code[next]? = some i) :
    (inChunk m cell p next registers).step =
      (inChunk m cell p (next + 1) registers).carryOut i := by
  have hcode : (inChunk m cell p next registers).frame.function.prototype.code[
      (inChunk m cell p next registers).frame.next]? = some i := h
  rw [step, hcode]
  rfl

/-- Reading a field under a name changes nothing but the register. -/
theorem readField_value {t : Thread} {dest : Nat} {object : Sourced} {key : Bytes} {v : Value}
    (h : Operation.fieldOf t.memory object.value (.str key) = some (.value v)) :
    t.readField dest object (.str key) = .done (.going (t.setRegister dest v)) := by
  have htouched : Operation.touched t.memory object.value (.str key) = t.memory := by
    unfold Operation.touched
    split <;> simp_all
  unfold readField
  rw [h, htouched]

/-- The variable from outside of a chunk is the table of the global variables. -/
def SeesGlobals (m : Memory) (cell : Nat) : Prop :=
  m.cells[cell]? = some (.held (.table Memory.globalTable))

theorem step_load (hglobals : SeesGlobals m cell) {dest : Nat} {a : CallArgument}
    (h : p.code[next]? = some (a.instruction dest)) :
    (inChunk m cell p next registers).step =
      .done (.going (inChunk m cell p (next + 1) (registers.set dest (a.value m)))) := by
  rw [step_inChunk h, ← setRegister_inChunk]
  cases a with
  | global name =>
    have houter : (inChunk m cell p (next + 1) registers).outer 0 =
        .table Memory.globalTable := by
      have hcell : (inChunk m cell p (next + 1) registers).memory.cells[cell]? =
          some (.held (.table Memory.globalTable)) := hglobals
      show Thread.cell _ cell = _
      rw [Thread.cell, hcell]
    exact readField_value (by rw [houter]; rfl)
  | constant value => rfl

/-- A method of the instrument is put in a register, and the instrument behind it. -/
theorem step_method {method : String} {f : Builtin} {rest : List Value}
    (h : p.code[next]? = some (.readMethod 0 0 (.constant (.ofText method))))
    (hmethod : Operation.instrumentFunction? (Utf8.encode method) = some f) :
    (inChunk m cell p next (.instrument :: .nil :: rest)).step =
      .done (.going (inChunk m cell p (next + 1) (.builtin f :: .instrument :: rest))) := by
  have hobject : (inChunk m cell p (next + 1) (.instrument :: .nil :: rest)).register 0 =
      .instrument := register_inChunk 0
  have hfield : ∀ m', Operation.fieldOf m' .instrument (.str (Utf8.encode method)) =
      some (.value (.builtin f)) := by
    intro m'
    simp [Operation.fieldOf, Operation.instrumentField, hmethod]
  rw [step_inChunk h]
  show readMethod _ 0 0 (.str (Utf8.encode method)) = _
  unfold readMethod
  rw [hobject, readField_value (hfield _), setRegister_inChunk, setRegister_inChunk]
  rfl

/-- Arguments are put in registers, one by one. -/
theorem runFor_load (hglobals : SeesGlobals m cell) (arguments : List CallArgument)
    (count : Nat) {before after : List Instruction} (front : List Value)
    (hcode : p.code = (before ++ CallArgument.load front.length arguments ++ after).toArray) :
    runFor (count + arguments.length)
        (inChunk m cell p before.length (front ++ List.replicate arguments.length Value.nil)) =
      runFor count
        (inChunk m cell p (before.length + arguments.length)
          (front ++ arguments.map (CallArgument.value m))) := by
  -- what is loaded already counts among the code before and the registers in front
  induction arguments generalizing before front with
  | nil => simp
  | cons a rest ih =>
    have hnext : p.code[before.length]? = some (a.instruction front.length) := by
      rw [hcode]
      simp [CallArgument.load]
    have hset : (front ++ List.replicate (rest.length + 1) Value.nil).set front.length (a.value m) =
        (front ++ [a.value m]) ++ List.replicate rest.length Value.nil := by
      rw [List.set_append_right _ _ (Nat.le_refl _), Nat.sub_self]
      simp [List.replicate_succ]
    rw [List.length_cons, ← Nat.add_assoc, runFor_succ, step_load hglobals hnext, hset,
      Dialogue.done_bind, goOn]
    have hcode' : p.code = (before ++ [a.instruction front.length] ++
        CallArgument.load (front ++ [a.value m]).length rest ++ after).toArray := by
      rw [hcode]
      simp [CallArgument.load]
    simpa [Nat.add_assoc, Nat.add_comm 1] using ih (front ++ [a.value m]) hcode'

theorem deliver_zero (t : Thread) (home : Nat) (results : List Value) :
    t.deliver home (some 0) results = t := by
  simp [deliver, putAll]

/-- A function of the engine that looks at nothing but its arguments and the memory is
performed. -/
theorem call_builtin {t : Thread} {f : Nat} {b : Builtin} (arguments results : Option Nat)
    (h : t.at_ (t.frame.base + f) = .builtin b)
    (hfits : overflows ((t.callAt f arguments results).slot + 1 +
      (t.callAt f arguments results).count) builtinSize = false)
    (hplain : b ≠ .error ∧ b ≠ .require ∧ b ≠ .tostring) :
    t.call f arguments results =
      t.perform b (t.arguments (t.callAt f arguments results)) fun t' given =>
        .going (t'.deliver (t.frame.base + f) results given) := by
  have hslot : t.at_ (t.callAt f arguments results).slot = .builtin b := h
  unfold call callBuiltin
  dsimp only
  rw [hslot, hfits]
  obtain ⟨herror, hrequire, htostring⟩ := hplain
  cases b <;> first | rfl | contradiction

/-- The function of the engine in the first register is called with all values behind it,
and its results are dropped. -/
theorem step_call {f : Builtin} {given : List Value}
    (h : p.code[next]? = some (.call 0 (some given.length) (some 0)))
    (hroom : given.length ≤ 250) (hplain : f ≠ .error ∧ f ≠ .require ∧ f ≠ .tostring) :
    (inChunk m cell p next (.builtin f :: given)).step =
      ((f.call given).run m).bind fun (result, m') =>
        .done (match result with
          | .ok _ => .going (inChunk m' cell p (next + 1) (.builtin f :: given))
          | .error fault => .failed fault m') := by
  have hslot : (inChunk m cell p (next + 1) (.builtin f :: given)).at_ (chunkBase + 0) =
      .builtin f := register_inChunk 0
  have hvalues : (inChunk m cell p (next + 1) (.builtin f :: given)).values (chunkBase + 0 + 1)
      given.length = given := values_inChunk [.builtin f] given
  have hfits : overflows (chunkBase + 0 + 1 + given.length) builtinSize = false := by
    unfold overflows stackLimit chunkBase builtinSize
    exact decide_eq_false (by omega)
  rw [step_inChunk h]
  refine (call_builtin (some given.length) (some 0) hslot hfits hplain).trans ?_
  have harguments : (inChunk m cell p (next + 1) (.builtin f :: given)).arguments
      ((inChunk m cell p (next + 1) (.builtin f :: given)).callAt 0 (some given.length)
        (some 0)) = given := hvalues
  rw [harguments]
  unfold perform
  simp only [deliver_zero]
  refine congrArg (Dialogue.bind ((f.call given).run m)) (funext fun ended => ?_)
  obtain ⟨result, m'⟩ := ended
  cases result <;> rfl

theorem step_leave (h : p.code[next]? = some (.leave 0 (some 0))) :
    (inChunk m cell p next registers).step = .done (.ended [] m) := by
  rw [step_inChunk h]
  rfl

end Steps

/-! ## The whole chunk -/

/-- The functions of the instrument look at nothing but their arguments and the memory. -/
theorem plain_of_instrumentFunction? {name : Bytes} {f : Builtin}
    (h : Operation.instrumentFunction? name = some f) :
    f ≠ .error ∧ f ≠ .require ∧ f ≠ .tostring := by
  obtain ⟨⟨known, f'⟩, hmem, hentry⟩ := List.exists_of_findSome?_eq_some h
  dsimp only at hentry
  split at hentry
  · obtain rfl := Option.some.inj hentry
    simp only [List.mem_cons, Prod.mk.injEq, List.not_mem_nil, or_false] at hmem
    rcases hmem with ⟨-, rfl⟩ | ⟨-, rfl⟩ | ⟨-, rfl⟩ | ⟨-, rfl⟩ | ⟨-, rfl⟩ <;> decide
  · cases hentry

/-- A chunk that calls a method of the instrument is the call of its function, with what it
is given. Its results are dropped. -/
theorem run_methodCall {m : Memory} {name method : String} {f : Builtin} (chunk : Bytes)
    (arguments : List CallArgument) (hobject : m.global name = .instrument)
    (hmethod : Operation.instrumentFunction? (Utf8.encode method) = some f)
    (hroom : arguments.length < 250) :
    run m (methodCall chunk name method arguments) =
      ((f.call (.instrument :: arguments.map (CallArgument.value (chunkMemory m)))).run
        (chunkMemory m)).bind fun (result, m') => .done (result.map fun _ => [], m') := by
  obtain ⟨count, hcount⟩ : ∃ count, instructionLimit = count + 2 + arguments.length + 2 :=
    ⟨instructionLimit - (arguments.length + 4), by
      have hlimit : 1000 ≤ instructionLimit := by decide
      omega⟩
  -- the table of the global variables is the one that the chunk sees
  generalize hm : chunkMemory m = m'
  have hglobals : SeesGlobals m' m.cells.size := by
    rw [← hm]
    exact Array.getElem?_push_size
  have hobject' : (CallArgument.global name).value m' = .instrument := by
    rw [← hm]
    exact hobject
  generalize hgiven : Value.instrument :: arguments.map (CallArgument.value m') = given
  have hlength : arguments.length + 1 = given.length := by
    rw [← hgiven, List.length_cons, List.length_map]
  -- of the chunk, only the instructions at the four places below matter
  generalize hp : methodCall chunk name method arguments = p
  have hcode : p.code =
      (lookUp name method ++ CallArgument.load 2 arguments ++
        callAndLeave (arguments.length + 1)).toArray := by
    rw [← hp]
    rfl
  have hcall : p.code[2 + arguments.length]? = some (.call 0 (some given.length) (some 0)) := by
    rw [← hlength, ← hp]
    exact code_methodCall chunk name method arguments 0
  have hleave : p.code[2 + arguments.length + 1]? = some (.leave 0 (some 0)) := by
    rw [← hp]
    exact code_methodCall chunk name method arguments 1
  have hfirst : p.code[0]? = some (CallArgument.instruction 0 (.global name)) := by
    rw [hcode]
    rfl
  have hsecond : p.code[1]? = some (.readMethod 0 0 (.constant (.ofText method))) := by
    rw [hcode]
    rfl
  calc run m p
    _ = runFor (count + 2 + arguments.length + 1 + 1)
          (inChunk m' m.cells.size p 0 (List.replicate (arguments.length + 2) Value.nil)) := by
      rw [run, hcount, start_eq, hm, ← hp]
      rfl
    _ = runFor (count + 2 + arguments.length + 1)
          (inChunk m' m.cells.size p 1
            (.instrument :: .nil :: List.replicate arguments.length Value.nil)) := by
      rw [runFor_succ, step_load hglobals hfirst, hobject']
      rfl
    _ = runFor (count + 2 + arguments.length)
          (inChunk m' m.cells.size p 2
            ([.builtin f, .instrument] ++ List.replicate arguments.length Value.nil)) := by
      rw [runFor_succ, step_method hsecond hmethod]
      rfl
    _ = runFor (count + 1 + 1)
          (inChunk m' m.cells.size p (2 + arguments.length) (.builtin f :: given)) := by
      rw [← hgiven]
      exact runFor_load hglobals arguments (count + 2) [.builtin f, .instrument] hcode
    _ = ((f.call given).run m').bind fun (result, m'') =>
          .done (result.map fun _ => [], m'') := by
      rw [runFor_succ, step_call hcall (by omega) (plain_of_instrumentFunction? hmethod),
        Dialogue.bind_assoc]
      refine congrArg (Dialogue.bind ((f.call given).run m')) (funext fun ⟨result, m''⟩ => ?_)
      cases result with
      | error fault => rfl
      | ok results =>
        rw [Dialogue.done_bind, goOn, runFor_succ, step_leave hleave]
        rfl

end Thread

end Lua

end ScpiScript
