import ScpiScript.Proofs.Lua.Sending
import ScpiScript.Proofs.Script.Printing
import ScpiScript.Proofs.Source.Boundary
import ScpiScript.Proofs.Text.Encoding
/-!
# Directives and code that send alike

Each of four directives has a partner: a line of code that sends the same by a method of the
instrument. A script of such lines leaves the instrument in the same state whichever of its
lines are directives and whichever are code, also if the link fails now and then.

- `SendingLine` is a directive or its partner, and `script` a script of such lines.
- `perform_line` is what such a line does.
- `instrument_script`: a script asks for what its lines send, one after the other.
- `instrument_script_eq` is the exchange of lines for their partners.
-/

namespace ScpiScript

open Lua

/-! ## The lines -/

/-- The directive that sends. -/
def Lua.Sending.directive : Sending → Directive
  | .command => .immediate "{t}"
  | .buffered => .buffered "{t}"
  | .parameter => .parameterBlock "{t}"
  | .block => .sampleBlock "{l}{v}"

/-- The text of the directive. -/
def Lua.Sending.directiveText : Sending → String
  | .command => "!{t}"
  | .buffered => "&{t}"
  | .parameter => "*{t}"
  | .block => "@{l}{v}"

/-- A line that sends, by a directive or by code. -/
structure SendingLine where
  sending : Sending
  byCode : Bool
  deriving DecidableEq, Repr

namespace SendingLine

/-- The text of the line. -/
def text (l : SendingLine) : String :=
  if l.byCode then "=" ++ l.sending.code else l.sending.directiveText

/-- What the line asks for. -/
def directive (l : SendingLine) : Directive :=
  if l.byCode then .evaluate l.sending.code else l.sending.directive

/-- The line with its end. -/
def bytes (l : SendingLine) : Bytes := Utf8.encode (l.text ++ "\n")

/-- The script of some lines. -/
def script (lines : List SendingLine) : Bytes := lines.flatMap bytes

/-- What is read of lines that stand behind others. -/
def reading : (before : Nat) → List SendingLine → Reading
  | _, [] => .finished
  | before, l :: rest => .item ⟨some l.directive, before + 1⟩ (reading (before + 1) rest)

section Reading

variable (l : SendingLine)

theorem endsLine_bytes : Source.EndsLine l.bytes := by
  obtain ⟨sending, byCode⟩ := l
  cases sending <;> cases byCode <;> decide +kernel

theorem physicalLines_bytes : Source.physicalLines l.bytes = [l.bytes] := by
  obtain ⟨sending, byCode⟩ := l
  cases sending <;> cases byCode <;> decide +kernel

theorem lineText?_bytes : Source.lineText? l.bytes = some l.text := by
  obtain ⟨sending, byCode⟩ := l
  cases sending <;> cases byCode <;> decide +kernel

theorem dropMark?_text : Source.dropMark? l.text = none := by
  obtain ⟨sending, byCode⟩ := l
  cases sending <;> cases byCode <;> decide +kernel

theorem ofLine?_text : Directive.ofLine? l.text = some l.directive := by
  obtain ⟨sending, byCode⟩ := l
  cases sending <;> cases byCode <;> decide +kernel

theorem directive_ne : l.directive ≠ .evaluate "" := by
  obtain ⟨sending, byCode⟩ := l
  cases sending <;> cases byCode <;> decide

end Reading

theorem reading_script (tag : String) (n : Nat) (lines : List SendingLine) :
    Source.reading ⟨tag, .ok (Source.physicalLines (script lines)), n⟩ = reading n lines := by
  induction lines generalizing n with
  | nil => exact Source.reading_of_none (Source.readItem_nil tag n)
  | cons l rest ih =>
    have hlines : Source.physicalLines (script (l :: rest)) =
        l.bytes :: Source.physicalLines (script rest) := by
      rw [script, List.flatMap_cons, Source.physicalLines_append l.endsLine_bytes,
        l.physicalLines_bytes]
      rfl
    -- no line goes on in the next one
    have hjoin : Source.joinLines l.text (n + 1) (Source.physicalLines (script rest)) =
        (.ok l.text, Source.physicalLines (script rest), n + 1) := by
      cases Source.physicalLines (script rest) <;>
        simp [Source.joinLines, l.dropMark?_text]
    have hdirective : Directive.ofLine? l.text ≠ some (.evaluate "") := by
      rw [l.ofLine?_text]
      exact fun h => l.directive_ne (Option.some.inj h)
    rw [hlines, Source.reading_of_item (Source.readItem_line l.lineText?_bytes hjoin hdirective),
      ih, l.ofLine?_text]
    rfl

end SendingLine

/-! ## One line -/

namespace Lua

section Scope

variable {m : Memory} {text lead : String} {samples : List Binary32}

theorem textOf_eq {name : String} (h : m.global name = .ofText text) :
    Scope.textOf (Machine.mk m) name = .ok text := by
  have hlookup : Scope.lookup (Machine.mk m) name = some (.text text) := by
    show Machine.scopeValue m (m.global name) = _
    rw [h]
    exact congrArg (fun t => some (ScopeValue.text t)) (Utf8.decodeLossy_encode text)
  rw [Scope.textOf, hlookup]
  rfl

theorem Memory.HoldsVector.vectorOf_eq {name : String}
    (h : m.HoldsVector (m.global name) samples) :
    Scope.vectorOf (Machine.mk m) name = .ok samples := by
  have hlookup : Scope.lookup (Machine.mk m) name = some (.vector samples) := by
    show Machine.scopeValue m (m.global name) = _
    unfold Machine.scopeValue
    rw [h.samples?_eq]
  rw [Scope.vectorOf, hlookup]
  rfl

end Scope

end Lua

theorem Reference.substitute_name (textOf : String → Except ScopeError String) {name : String}
    {text : String} (hsegments : segments text.toList = [.reference name.toList]) :
    substitute textOf text = textOf name := by
  rw [substitute, hsegments, fill, Segment.fill, String.ofList_toList]
  cases textOf name with
  | error e => rfl
  | ok value =>
    simp [fill, Except.map]

/-- Code of a source whose name holds no zero character is run. -/
theorem zeroByte?_chunkName {tag : String} (h : '\x00' ∉ tag.toList) (line : Nat) :
    Machine.zeroByte? (Interpreter.chunkName tag line) = none := by
  have hdigits : '\x00' ∉ (toString line).toList := by
    rw [Nat.toString_eq_repr, Nat.toList_repr]
    intro hmem
    exact absurd (Nat.isDigit_of_mem_toDigits (by decide) (by decide) hmem) (by decide)
  have hname : '\x00' ∉ (Interpreter.chunkName tag line).toList := by
    show '\x00' ∉ (toString tag ++ ":" ++ toString line).toList
    rw [String.toList_append, String.toList_append, List.mem_append, List.mem_append]
    rintro ((hmem | hmem) | hmem)
    · exact h hmem
    · revert hmem
      decide
    · exact hdigits hmem
  have hbytes := Utf8.zero_notMem_encode hname
  unfold Machine.zeroByte?
  rw [List.findIdx?_eq_none_iff.mpr fun b hb =>
    decide_eq_false fun (hzero : b = 0) => hbytes (hzero ▸ hb)]
  rfl

namespace Interpreter

variable {τ : Type} [Link τ]

/-- There is a session, and the names that are sent stand for a text, a lead text and a
vector. -/
structure ReadyToSend (r : Interpreter Machine τ) (text lead : String)
    (samples : List Binary32) : Prop where
  isOpen : r.instrument.isOpen = true
  bound : r.engine.memory.Bound text lead samples

variable {r : Interpreter Machine τ} {text lead : String} {samples : List Binary32}

/-- No use of the link ends the session. -/
theorem isOpen_sustained :
    Instrument.Sustained (fun i : Instrument τ => i.isOpen = true) True where
  setPending _ h := h
  write _ _ _ := ⟨rfl, .inl trivial⟩
  read _ _ := ⟨rfl, .inl trivial⟩

theorem requests_directive (h : r.ReadyToSend text lead samples) (s : Sending) (tag : String)
    (line : Nat) :
    r.requests tag ⟨some s.directive, line⟩ = [s.request text lead samples] := by
  have htext : Reference.substitute (Scope.textOf r.engine) "{t}" = .ok text :=
    (Reference.substitute_name _ (by decide +kernel)).trans (textOf_eq h.bound.text)
  have hlead : Reference.substitute (Scope.textOf r.engine) "{l}" = .ok lead :=
    (Reference.substitute_name _ (by decide +kernel)).trans (textOf_eq h.bound.lead)
  cases s with
  | command => simp [requests, Sending.directive, h.isOpen, requestWith, htext, Sending.request]
  | buffered => simp [requests, Sending.directive, h.isOpen, requestWith, htext, Sending.request]
  | parameter => simp [requests, Sending.directive, requestWith, htext, Sending.request]
  | block =>
    have hsplit : Reference.splitTail "{l}{v}" r.vectorName = ("{l}", "v") := rfl
    have hvector : Scope.vectorOf r.engine "v" = .ok samples := h.bound.vector.vectorOf_eq
    simp [requests, Sending.directive, h.isOpen, vectorRequest, hsplit, hvector, requestWith,
      hlead, Sending.request]

/-- A line makes one use of the instrument, the run goes on behind it, and its names stay
bound to the same. -/
structure Sends (r r' : Interpreter Machine τ) (request : Request) (text lead : String)
    (samples : List Binary32) : Prop where
  instrument : r'.instrument = (r.instrument.answer request).2
  ready : r'.ReadyToSend text lead samples

theorem ReadyToSend.sends (h : r.ReadyToSend text lead samples) {r' : Interpreter Machine τ}
    {request : Request} (hinstrument : r'.instrument = (r.instrument.answer request).2)
    (hbound : r'.engine.memory.Bound text lead samples) :
    Sends r r' request text lead samples where
  instrument := hinstrument
  ready := by
    refine ⟨?_, hbound⟩
    rw [hinstrument]
    exact (isOpen_sustained.answer h.isOpen request).1

theorem perform_directive (h : r.ReadyToSend text lead samples) (s : Sending)
    (runFile : String → RunM Machine τ Unit) (tag : String) (line : Nat) :
    ∃ r', perform runFile tag ⟨some s.directive, line⟩ r = .ok true r' ∧
      Sends r r' (s.request text lead samples) text lead samples := by
  have hincluded : Item.included? ⟨some s.directive, line⟩ = none := by cases s <;> rfl
  have hcode : ∀ code, some s.directive ≠ some (.evaluate code) := by
    intro code
    cases s <;> exact fun h => by cases h
  have hend : some s.directive ≠ some .terminate := by cases s <;> exact fun h => by cases h
  have haction := action_eq_ok r runFile tag hincluded hcode
  rw [requests_directive h] at haction
  refine ⟨r.acted [s.request text lead samples] (r.reports tag ⟨some s.directive, line⟩), ?_,
    h.sends rfl h.bound⟩
  rw [perform_eq runFile tag hend, bind_of_ok haction]
  rfl

theorem perform_code (h : r.ReadyToSend text lead samples) (s : Sending)
    (runFile : String → RunM Machine τ Unit) {tag : String} (htag : '\x00' ∉ tag.toList)
    (line : Nat) :
    ∃ r', perform runFile tag ⟨some (.evaluate s.code), line⟩ r = .ok true r' ∧
      Sends r r' (s.request text lead samples) text lead samples := by
  let answered := r.instrument.answer (s.request text lead samples)
  let after : Interpreter Machine τ :=
    { r with
      engine := ⟨s.memoryAfter (Thread.chunkMemory r.engine.memory)⟩
      instrument := answered.2
      evaluated := r.evaluated ++ [⟨chunkName tag line, s.code⟩] }
  have hran : r.ran ⟨chunkName tag line, s.code⟩ =
      (s.outcome r.engine.memory answered.1, after) := by
    unfold ran
    rw [show Engine.execute r.engine s.code (chunkName tag line) = _ from
      execute_code h.bound s (zeroByte?_chunkName htag line)]
    rfl
  have hbound : after.engine.memory.Bound text lead samples := h.bound.chunkMemory.memoryAfter s
  -- a failure is printed, and nothing else
  have haction : ∃ r', action runFile tag ⟨some (.evaluate s.code), line⟩ r = .ok () r' ∧
      Sends r r' (s.request text lead samples) text lead samples := by
    show ∃ r', evaluate tag line s.code r = .ok () r' ∧ _
    rw [evaluate_eq r tag line (s.code_ne_empty), hran]
    dsimp only
    rcases s.outcome_cases r.engine.memory answered.1 with hok | ⟨message, hfailure⟩
    · rw [hok]
      exact ⟨after, rfl, h.sends rfl hbound⟩
    · rw [hfailure]
      exact ⟨after.said (.engineFailure message), rfl, h.sends rfl hbound⟩
  obtain ⟨r', hok, hsends⟩ := haction
  refine ⟨r', ?_, hsends⟩
  rw [perform_eq runFile tag (by exact fun h => by cases h), bind_of_ok hok]
  rfl

/-- A line makes one use of the instrument, whether it is a directive or code. -/
theorem perform_line (h : r.ReadyToSend text lead samples) (l : SendingLine)
    (runFile : String → RunM Machine τ Unit) {tag : String} (htag : '\x00' ∉ tag.toList)
    (line : Nat) :
    ∃ r', perform runFile tag ⟨some l.directive, line⟩ r = .ok true r' ∧
      Sends r r' (l.sending.request text lead samples) text lead samples := by
  obtain ⟨s, _ | _⟩ := l
  · exact perform_directive h s runFile tag line
  · exact perform_code h s runFile htag line

/-! ## Scripts -/

/-- Lines make their uses of the instrument one after the other. -/
theorem runReading_lines (runFile : String → RunM Machine τ Unit) {tag : String}
    (htag : '\x00' ∉ tag.toList) (lines : List SendingLine) (before : Nat)
    (h : r.ReadyToSend text lead samples) :
    (finalState (runReading runFile tag (SendingLine.reading before lines) r)).instrument =
      r.instrument.after (lines.map fun l => l.sending.request text lead samples) := by
  induction lines generalizing before r with
  | nil => rfl
  | cons l rest ih =>
    obtain ⟨r', hperform, hsends⟩ := perform_line h l runFile htag (before + 1)
    rw [SendingLine.reading, runReading_item hperform, if_pos rfl, ih (before + 1) hsends.ready,
      hsends.instrument]
    rfl

/-- A script makes the uses of the instrument that its lines stand for, and no others. -/
theorem instrument_script (files : FileTree) (limit : Nat) {tag : String}
    (htag : '\x00' ∉ tag.toList) (lines : List SendingLine)
    (h : r.ReadyToSend text lead samples) :
    (finalState (runSource files limit (.ofBytes tag (SendingLine.script lines)) r)).instrument =
      r.instrument.after (lines.map fun l => l.sending.request text lead samples) := by
  rw [runSource, ← finalState_discard, runItems_eq_runReading, finalState_discard]
  show (finalState (runReading _ tag (Source.reading ⟨tag, _, 0⟩) r)).instrument = _
  rw [SendingLine.reading_script]
  exact runReading_lines (runPath files limit) htag lines 0 h

/-- Directives and code drive the instrument alike. For every text, lead text and vector that
the names are bound to, two scripts whose lines stand for the same uses leave an instrument
with a session in the same state, whichever of the lines are directives and whichever are
code, and whatever the link does. The name of the source is part of the name of the code in
it, which may hold no zero character. -/
theorem instrument_eq_of_sendings (files : FileTree) (limit : Nat) {tag : String}
    (htag : '\x00' ∉ tag.toList) {lines lines' : List SendingLine}
    (hsame : lines.map SendingLine.sending = lines'.map SendingLine.sending)
    (h : r.ReadyToSend text lead samples) :
    (finalState (runSource files limit (.ofBytes tag (SendingLine.script lines)) r)).instrument =
      (finalState
        (runSource files limit (.ofBytes tag (SendingLine.script lines')) r)).instrument := by
  have hrequests : (lines.map fun l => l.sending.request text lead samples) =
      lines'.map fun l => l.sending.request text lead samples := by
    have hmap := congrArg (List.map (Sending.request text lead samples)) hsame
    rwa [List.map_map, List.map_map] at hmap
  rw [instrument_script files limit htag lines h, hrequests,
    instrument_script files limit htag lines' h]

/-- A command left open, then a vector and a parameter, by directives and by code. -/
def alternating (byCode : Bool) : List SendingLine :=
  [⟨.buffered, byCode⟩, ⟨.block, !byCode⟩, ⟨.parameter, byCode⟩, ⟨.command, byCode⟩]

/-- A run about to begin with the names bound, over a link whose second write fails. -/
def readyToAlternate : Interpreter Machine FaultyLink :=
  .new ⟨(Machine.start ⟨[], []⟩ []).memory.withSent "VOLT #1" "{t} " [⟨0⟩]⟩
    ((Instrument.new .little).attached "scope"
      { FaultyLink.fresh with writeFails := fun k => k == 1 })

/-- The same with a table of two numbers for the vector. -/
def readyWithTable : Interpreter Machine FaultyLink :=
  { readyToAlternate with
    engine := ⟨(Machine.start ⟨[], []⟩ []).memory.withTable "VOLT #1" "{t} "
      [.number (.int 1), .number (.int 2)]⟩ }

/-- Directives and code take turns, with a vector and with a table that stands for one. -/
theorem instrument_eq_of_sendings_alternating :
    readyToAlternate.ReadyToSend "VOLT #1" "{t} " [⟨0⟩] ∧
      (finalState (runSource ⟨[], []⟩ openLimit
          (.ofBytes "send.arb" (SendingLine.script (alternating true))) readyToAlternate)).instrument =
        (finalState (runSource ⟨[], []⟩ openLimit
          (.ofBytes "send.arb" (SendingLine.script (alternating false)))
          readyToAlternate)).instrument ∧
      readyWithTable.ReadyToSend "VOLT #1" "{t} " [⟨0x3F800000⟩, ⟨0x40000000⟩] ∧
      (finalState (runSource ⟨[], []⟩ openLimit
          (.ofBytes "send.arb" (SendingLine.script (alternating true))) readyWithTable)).instrument =
        (finalState (runSource ⟨[], []⟩ openLimit
          (.ofBytes "send.arb" (SendingLine.script (alternating false)))
          readyWithTable)).instrument := by
  have hglobals : (Machine.start ⟨[], []⟩ []).memory.HasGlobals := Memory.hasGlobals_initial _ _
  have hready : readyToAlternate.ReadyToSend "VOLT #1" "{t} " [⟨0⟩] :=
    ⟨rfl, hglobals.bound_withSent (by decide +kernel) _ _ _⟩
  have htable : readyWithTable.ReadyToSend "VOLT #1" "{t} " [⟨0x3F800000⟩, ⟨0x40000000⟩] :=
    ⟨rfl, hglobals.bound_withTable (by decide +kernel) _ _ (by decide) (by decide)
      (by decide +kernel)⟩
  exact ⟨hready, instrument_eq_of_sendings ⟨[], []⟩ openLimit (by decide) rfl hready, htable,
    instrument_eq_of_sendings ⟨[], []⟩ openLimit (by decide) rfl htable⟩

end Interpreter

end ScpiScript
