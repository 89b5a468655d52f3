import ScpiScript.Proofs.Instrument.Sending
/-!
# What becomes of links

A link is in the hands of one session from when this begins until it ends. Requests use
only the link of the session, and leave the session as it is otherwise. Ending the session
closes the link and lets go of it.

- `Journal` is a link with an account of its uses.
- `Instrument.Uses` says what requests do to an instrument, `sustained_uses` that they do
  nothing else.
- `Instrument.Holds` is the account of all links ever attached: each one let go is closed
  once and not used after that. Beginning a session, using it and ending it keep the
  account, as long as no session over a link is replaced by another.
-/

namespace ScpiScript

/-- One use of a link. -/
inductive LinkUse
  | write (f : Frame)
  | read
  | close
  deriving DecidableEq, Repr

/-- A link with an account of its uses, and the link as it was in the beginning. -/
structure Journal (τ : Type) where
  origin : τ
  link : τ
  uses : List LinkUse

namespace Journal

variable {τ : Type}

/-- A link that is about to be used. -/
def fresh (link : τ) : Journal τ := ⟨link, link, []⟩

/-- An account with one more use. -/
def enter (j : Journal τ) (use : LinkUse) (link : τ) : Journal τ :=
  { j with link, uses := j.uses ++ [use] }

/-- A link is used as it would be without the account, whatever comes of the use. -/
instance [Link τ] : Link (Journal τ) where
  write j f := ((Link.write j.link f).1, j.enter (.write f) (Link.write j.link f).2)
  readLine j := ((Link.readLine j.link).1, j.enter .read (Link.readLine j.link).2)
  close j := ((Link.close j.link).1, j.enter .close (Link.close j.link).2)

/-- A link that was not closed. -/
def Unclosed (j : Journal τ) : Prop := .close ∉ j.uses

/-- A link that was closed once, and not used after that. -/
def ClosedOnce (j : Journal τ) : Prop := ∃ before, j.uses = before ++ [.close] ∧ .close ∉ before

variable [Link τ]

/-- Using a link adds to its account, and does not close it. -/
theorem of_reaches {j l : Journal τ} (h : Reaches j l) :
    l.origin = j.origin ∧ (j.Unclosed → l.Unclosed) := by
  induction h with
  | refl j => exact ⟨rfl, id⟩
  | write f _ ih =>
    refine ⟨ih.1, fun hunclosed => ih.2 ?_⟩
    exact fun hclose => (List.mem_append.mp hclose).elim hunclosed fun h => by simp at h
  | read _ ih =>
    refine ⟨ih.1, fun hunclosed => ih.2 ?_⟩
    exact fun hclose => (List.mem_append.mp hclose).elim hunclosed fun h => by simp at h

theorem closedOnce_close {j : Journal τ} (h : j.Unclosed) : (Link.close j).2.ClosedOnce :=
  ⟨j.uses, rfl, h⟩

end Journal

theorem Reaches.trans {τ : Type} [Link τ] {link l m : τ} (h : Reaches link l)
    (hrest : Reaches l m) : Reaches link m := by
  induction h with
  | refl => exact hrest
  | write f _ ih => exact .write f (ih hrest)
  | read _ ih => exact .read (ih hrest)

/-- The kind of a session and its address, without the link. -/
def Session.shape {τ : Type} : Session τ → Session Unit
  | .closed => .closed
  | .connected address _ => .connected address ()
  | .dryRun => .dryRun

namespace Instrument

variable {τ : Type}

/-! ## What requests do -/

/-- What requests can do to an instrument: they use the link of its session. -/
structure Uses [Link τ] (i i' : Instrument τ) : Prop where
  released : i'.released = i.released
  shape : i'.session.shape = i.session.shape
  link : Option.Rel Reaches i.link? i'.link?

theorem Uses.refl [Link τ] (i : Instrument τ) : i.Uses i where
  released := rfl
  shape := rfl
  link := by
    cases i.link? with
    | none => exact .none
    | some link => exact .some (.refl link)

theorem Uses.reaches [Link τ] {i i' : Instrument τ} (h : i.Uses i') {link' : τ}
    (hlink' : i'.link? = some link') : ∃ link, i.link? = some link ∧ Reaches link link' := by
  have hlink := h.link
  rw [hlink'] at hlink
  generalize i.link? = before at hlink
  cases hlink with
  | some hreach => exact ⟨_, rfl, hreach⟩

/-- One more use of the link. -/
theorem Uses.next [Link τ] {i i' : Instrument τ} (h : i.Uses i') {address : String}
    {link' next : τ} (hsession : i'.session = .connected address link')
    (hnext : Reaches link' next) :
    i.Uses { i' with session := .connected address next } where
  released := h.released
  shape := by
    rw [← h.shape, hsession]
    rfl
  link := by
    have hcurrent : i'.link? = some link' := by rw [link?, hsession]
    obtain ⟨link, hlink, hreach⟩ := h.reaches hcurrent
    rw [hlink]
    exact .some (hreach.trans hnext)

/-- Requests do nothing else. -/
theorem sustained_uses [Link τ] (i : Instrument τ) : Sustained i.Uses True where
  setPending _ h := ⟨h.released, h.shape, h.link⟩
  write f h hsession := ⟨h.next hsession (.write f (.refl _)), .inl trivial⟩
  read h hsession := ⟨h.next hsession (.read (.refl _)), .inl trivial⟩

/-! ## Beginning and ending a session -/

theorem links_of_link? {i : Instrument τ} {link : τ} (h : i.link? = some link) :
    i.links = i.released ++ [link] := by
  rw [links, h]
  rfl

theorem links_of_unlinked {i : Instrument τ} (h : i.link? = none) : i.links = i.released := by
  rw [links, h]
  exact List.append_nil _

section Close

variable [Link τ]

/-- Ending a session over a link closes it and lets go of it, even if closing fails. -/
theorem finalState_close {i : Instrument τ} {link : τ} (h : i.link? = some link) :
    finalState (close i) =
      ⟨.closed, false, i.byteOrder, i.released ++ [(Link.close link).2]⟩ := by
  unfold close
  rw [link?] at h
  split at h
  · cases h
    dsimp only
    rcases Link.close link with ⟨e | _, link'⟩ <;> rfl
  · cases h

theorem finalState_close_unlinked {i : Instrument τ} (h : i.link? = none) :
    finalState (close i) = ⟨.closed, false, i.byteOrder, i.released⟩ := by
  unfold close
  rw [← links_of_unlinked h]
  rw [link?] at h
  split at h
  · cases h
  · rfl

/-- No session is left when one is ended. -/
theorem close_closes (i : Instrument τ) :
    (finalState (close i)).session = .closed ∧
      (finalState (close i)).pendingTerminator = false := by
  rcases h : i.link? with _ | link
  · rw [finalState_close_unlinked h]
    exact ⟨rfl, rfl⟩
  · rw [finalState_close h]
    exact ⟨rfl, rfl⟩

theorem dispose_eq (i : Instrument τ) : i.dispose = finalState (close i) := by
  unfold dispose
  cases close i <;> rfl

end Close

/-! ## The account of all links -/

/-- The account of the links ever attached, in order: those let go were closed once and
not used after that, and the link of the session was not closed. -/
structure Holds (i : Instrument (Journal τ)) (attached : List τ) : Prop where
  origins : i.links.map Journal.origin = attached
  released : ∀ j ∈ i.released, j.ClosedOnce
  current : ∀ j, i.link? = some j → j.Unclosed

/-- Of all links, only the one attached last has changed. -/
def SparesOlder (i i' : Instrument τ) : Prop :=
  ∀ k, k + 1 < i'.links.length → i'.links[k]? = i.links[k]?

theorem sparesOlder_of_links {i i' : Instrument τ} {older last last' : List τ}
    (h : i.links = older ++ last) (h' : i'.links = older ++ last') (hlast : last'.length ≤ 1) :
    i.SparesOlder i' := by
  intro k hk
  rw [h', List.length_append] at hk
  have hlt : k < older.length := by omega
  rw [h, h', List.getElem?_append_left hlt, List.getElem?_append_left hlt]

theorem Uses.sparesOlder [Link τ] {i i' : Instrument τ} (h : i.Uses i') : i.SparesOlder i' := by
  have hlinks : i'.links = i.released ++ i'.link?.toList := by rw [links, h.released]
  refine sparesOlder_of_links rfl hlinks ?_
  cases i'.link? <;> simp

theorem sparesOlder_enter (i : Instrument τ) (session : Session τ) :
    i.SparesOlder (i.enter session) := by
  refine sparesOlder_of_links (List.append_nil i.links).symm rfl ?_
  cases (i.enter session).link? <;> simp

theorem sparesOlder_close [Link τ] (i : Instrument τ) :
    i.SparesOlder (finalState (close i)) := by
  rcases h : i.link? with _ | link
  · rw [finalState_close_unlinked h, ← links_of_unlinked h]
    exact sparesOlder_enter i .closed
  · rw [finalState_close h]
    exact sparesOlder_of_links (links_of_link? h) (links_of_unlinked rfl) (Nat.le_refl 1)

namespace Holds

variable {i i' : Instrument (Journal τ)} {attached : List τ}

theorem new (order : Block.ByteOrder) : (Instrument.new order : Instrument (Journal τ)).Holds [] :=
  ⟨rfl, (fun _ h => by cases h), (fun _ h => by cases h)⟩

/-- A session begun where no link is held keeps the account, with the link it begins over. -/
theorem enter (h : i.Holds attached) (hfree : i.link? = none) {session : Session (Journal τ)}
    {begun : List τ} (hbegun : (i.enter session).link?.toList = begun.map Journal.fresh) :
    (i.enter session).Holds (attached ++ begun) where
  origins := by
    rw [links, hbegun, List.map_append, List.map_map]
    show i.links.map Journal.origin ++ begun.map id = attached ++ begun
    rw [h.origins, List.map_id]
  released j hj := by
    have hj : j ∈ i.links := hj
    rw [links_of_unlinked hfree] at hj
    exact h.released j hj
  current j hj := by
    have hmem : j ∈ begun.map Journal.fresh := by
      rw [← hbegun, hj]
      exact List.mem_cons_self
    obtain ⟨link, -, rfl⟩ := List.mem_map.mp hmem
    exact List.not_mem_nil

variable [Link τ]

/-- Using the link of the session keeps the account. -/
theorem uses (h : i.Holds attached) (huses : i.Uses i') : i'.Holds attached where
  origins := by
    rw [← h.origins, links, links, huses.released, List.map_append, List.map_append]
    congr 1
    -- the link of the session may have changed, but not where it came from
    have hlink := huses.link
    generalize i.link? = before at hlink ⊢
    generalize i'.link? = now at hlink ⊢
    cases hlink with
    | none => rfl
    | some hreach => exact congrArg (fun origin => [origin]) (Journal.of_reaches hreach).1
  released := by
    rw [huses.released]
    exact h.released
  current j hj := by
    obtain ⟨link, hlink, hreach⟩ := huses.reaches hj
    exact (Journal.of_reaches hreach).2 (h.current link hlink)

/-- Ending the session keeps the account. -/
theorem close (h : i.Holds attached) : (finalState (Instrument.close i)).Holds attached := by
  rcases hlink : i.link? with _ | link
  · rw [finalState_close_unlinked hlink]
    refine ⟨?_, h.released, fun _ hnone => by cases hnone⟩
    have horigins := h.origins
    rw [links_of_unlinked hlink] at horigins
    exact (congrArg (List.map Journal.origin) (links_of_unlinked rfl)).trans horigins
  · rw [finalState_close hlink]
    refine ⟨?_, ?_, fun _ hnone => by cases hnone⟩
    · have horigins := h.origins
      rw [links_of_link? hlink] at horigins
      rw [links_of_unlinked rfl]
      rw [List.map_append] at horigins ⊢
      exact horigins
    · intro j hj
      rcases List.mem_append.mp hj with hj | hj
      · exact h.released j hj
      · rw [List.mem_singleton.mp hj]
        exact Journal.closedOnce_close (h.current link hlink)

/-- Once an instrument is given up, every link was closed once. -/
theorem dispose (h : i.Holds attached) :
    i.dispose.links.map Journal.origin = attached ∧ ∀ j ∈ i.dispose.links, j.ClosedOnce := by
  rw [dispose_eq]
  refine ⟨h.close.origins, fun j hj => ?_⟩
  have hclosed : (finalState (Instrument.close i)).link? = none := by
    rw [link?, (close_closes i).1]
  rw [links_of_unlinked hclosed] at hj
  exact h.close.released j hj

end Holds

end Instrument

end ScpiScript
