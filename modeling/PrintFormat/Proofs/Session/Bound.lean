import PrintFormat.Proofs.Render.Transcript
import PrintFormat.Session

/-!
Sessions on destinations of limited size. A session on a buffer or on a writer
with a limit is compared with the same steps on memory that grows, which refuses
nothing. `Session.Follows` is what the two have in common after any number of
steps, whatever the contexts are that they render with; `Follows.step` says that
a step keeps it and how its two answers compare, and `limited_sessions` what
comes of whole runs.
-/
namespace PrintFormat

/-! ## Steps -/

/-- The pieces that a step puts out, and its answer if they are all taken and
come to a count of bytes. -/
structure Script where
  pieces : List Piece
  answer : Nat → Except FormatError (Option Nat)

def Step.script : Step → Script
  | .render format args options | .renderShared format args options =>
      let t := Transcript.ofFormat options format args
      ⟨t.pieces, fun count => t.verdict.map fun _ => some count⟩
  | .write bytes => ⟨[.bytes bytes], fun _ => .ok none⟩
  | .fill byte count => ⟨[.fill byte count], fun _ => .ok none⟩
  | .pad width byte bytes => ⟨aligned width byte bytes, fun _ => .ok none⟩
  | .flush | .useContext _ => ⟨[], fun _ => .ok none⟩

namespace Session

variable {s : Session} {op : Step} {sink : Sink}

theorem deliver_ok {pieces : List Piece} (h : Sink.putAll pieces s.sink = .ok () sink) :
    (s.deliver pieces).1 = .ok none ∧ (s.deliver pieces).2.sink = sink := by
  simp only [deliver, h, and_self]

theorem deliver_error {pieces : List Piece} {e : FormatError}
    (h : Sink.putAll pieces s.sink = .error e sink) :
    (s.deliver pieces).1 = .error e ∧ (s.deliver pieces).2.sink = sink := by
  simp only [deliver, h, and_self]

theorem rendered_ok (context : Context) {format : Bytes} {args : List Arg} {options : Options}
    (h : Sink.putAll (Step.render format args options).script.pieces s.sink = .ok () sink) :
    let r := context.render s.sink format args options
    r.outcome.map some =
        (Step.render format args options).script.answer (sink.written - s.sink.written) ∧
      r.sink = sink := by
  obtain ⟨ho, hs, -⟩ := context.render_delivered s.sink format args options h
  refine ⟨?_, hs⟩
  rw [ho]
  simp only [Step.script]
  cases (Transcript.ofFormat options format args).verdict <;> rfl

theorem rendered_error (context : Context) {format : Bytes} {args : List Arg} {options : Options}
    {e : FormatError}
    (h : Sink.putAll (Step.render format args options).script.pieces s.sink = .error e sink) :
    let r := context.render s.sink format args options
    r.outcome.map some = .error e ∧ r.sink = sink := by
  obtain ⟨ho, hs⟩ := context.render_refused s.sink format args options h
  refine ⟨?_, hs⟩
  rw [ho]
  rfl

/-- A step whose output the sink takes. -/
theorem step_delivered (hop : op ≠ .flush) (h : Sink.putAll op.script.pieces s.sink = .ok () sink) :
    (s.step op).1 = op.script.answer (sink.written - s.sink.written) ∧
      (s.step op).2.sink = sink := by
  cases op with
  | render format args options => exact rendered_ok s.context h
  | renderShared format args options => exact rendered_ok s.shared h
  | write bytes => exact deliver_ok h
  | fill byte count => exact deliver_ok h
  | pad width byte bytes => exact deliver_ok h
  | flush => exact absurd rfl hop
  | useContext context =>
    cases h
    exact ⟨rfl, rfl⟩

/-- A step whose output the sink refuses. -/
theorem step_refused {e : FormatError} (h : Sink.putAll op.script.pieces s.sink = .error e sink) :
    (s.step op).1 = .error e ∧ (s.step op).2.sink = sink := by
  cases op with
  | render format args options => exact rendered_error s.context h
  | renderShared format args options => exact rendered_error s.shared h
  | write bytes => exact deliver_error h
  | fill byte count => exact deliver_error h
  | pad width byte bytes => exact deliver_error h
  | flush => cases h
  | useContext context => cases h

/-- A step on memory: all of its output is delivered. -/
theorem step_memory (hop : op ≠ .flush) {encodings : Nat} {held : Array UInt8}
    (hs : s.sink = ⟨encodings, .memory held⟩) :
    let text := Percent.encodeTimes encodings (op.script.pieces.flatMap Piece.text)
    (s.step op).1 = op.script.answer text.length ∧
      (s.step op).2.sink = ⟨encodings, .memory (held ++ text)⟩ := by
  intro text
  have hput : Sink.putAll op.script.pieces s.sink = .ok () ⟨encodings, .memory (held ++ text)⟩ := by
    rw [hs]
    exact Sink.putAll_memory _ _ held
  obtain ⟨hanswer, hsink⟩ := step_delivered hop hput
  rw [hs, Sink.written_memory_append] at hanswer
  exact ⟨hanswer, hsink⟩

/-! ## A limited session beside a free one -/

/-- Two sessions in step: the one is on memory, and the other on a limited
target that holds as much of it as its limit allows. -/
structure Follows (limit : Nat) (refusal : FormatError) (free bounded : Session) : Prop where
  memory : ∃ held, free.sink.target = .memory held
  encodings : bounded.sink.encodings = free.sink.encodings
  limited : Target.Limited limit refusal bounded.sink.target
  contents : bounded.sink.contents = free.sink.contents.take limit

/-- The answer of a step on a limited destination, from the answer on memory and
what is in memory before and after it. -/
def boundedAnswer {α : Type} (limit : Nat) (refusal : FormatError) (before after : Bytes)
    (answer : Except FormatError α) : Except FormatError α :=
  if after.length ≤ limit ∨ after = before then answer else .error refusal

/-- Bytes beyond a limit stay beyond it. -/
theorem take_take_append {α : Type} (limit : Nat) (a b : List α) :
    (a.take limit ++ b).take limit = (a ++ b).take limit := by
  rw [List.take_append, List.take_append, List.take_take, Nat.min_self, List.length_take]
  congr 2
  omega

/-- Output fits behind what was cut off at the limit if the whole is within the
limit, or if there is no output. -/
theorem length_take_append_le {α : Type} (limit : Nat) (a b : List α) :
    (a.take limit ++ b).length ≤ limit ↔ (a ++ b).length ≤ limit ∨ a ++ b = a := by
  rw [List.append_right_eq_self, ← List.length_eq_zero_iff]
  simp only [List.length_append, List.length_take]
  omega

/-- One step on both sides. -/
theorem Follows.step {limit : Nat} {refusal : FormatError} {free bounded : Session}
    (h : Follows limit refusal free bounded) (hop : op ≠ .flush) :
    Follows limit refusal (free.step op).2 (bounded.step op).2 ∧
      (bounded.step op).1 = boundedAnswer limit refusal free.sink.contents
        (free.step op).2.sink.contents (free.step op).1 := by
  obtain ⟨held, hmem⟩ := h.memory
  -- the output is the same on both sides, and memory takes all of it
  let text := Percent.encodeTimes free.sink.encodings (op.script.pieces.flatMap Piece.text)
  have hfree : free.sink = ⟨free.sink.encodings, .memory held⟩ := by rw [← hmem]
  obtain ⟨hanswer, hsink⟩ := step_memory hop hfree
  have hafter : (free.step op).2.sink.contents = free.sink.contents ++ text := by
    rw [hsink, hfree]
    exact Array.toList_appendList
  obtain ⟨after, henc, hlim, hcont, hrun⟩ := Sink.putAll_limited h.limited op.script.pieces
  rw [h.encodings] at henc hcont hrun
  have hcut : after.contents = (free.step op).2.sink.contents.take limit := by
    rw [hcont, h.contents, take_take_append, hafter]
  have hfits : (bounded.sink.contents ++ text).length ≤ limit ↔
      (free.step op).2.sink.contents.length ≤ limit ∨
        (free.step op).2.sink.contents = free.sink.contents := by
    rw [h.contents, hafter]
    exact length_take_append_le limit _ _
  have hmem' : ∃ held, (free.step op).2.sink.target = .memory held := ⟨held ++ text, by rw [hsink]⟩
  have henc' : (free.step op).2.sink.encodings = free.sink.encodings := by rw [hsink]
  unfold boundedAnswer
  by_cases hfit : (bounded.sink.contents ++ text).length ≤ limit
  · obtain ⟨htaken, hwritten⟩ := (if_pos hfit).mp hrun
    obtain ⟨hanswer', hsink'⟩ := step_delivered hop htaken
    rw [if_pos (hfits.mp hfit), hanswer, hanswer', hwritten, Nat.add_sub_cancel_left]
    exact ⟨⟨hmem', by rw [hsink', henc, henc'], by rwa [hsink'], by rwa [hsink']⟩, rfl⟩
  · obtain ⟨hanswer', hsink'⟩ := step_refused ((if_neg hfit).mp hrun)
    rw [if_neg (mt hfits.mpr hfit), hanswer']
    exact ⟨⟨hmem', by rw [hsink', henc, henc'], by rwa [hsink'], by rwa [hsink']⟩, rfl⟩

/-! ## Runs -/

/-- The session after the first steps of a list. -/
def after (s : Session) (steps : List Step) (count : Nat) : Session :=
  (s.run (steps.take count)).2

theorem run_cons (s : Session) (op : Step) (rest : List Step) :
    s.run (op :: rest) =
      ((s.step op).1 :: ((s.step op).2.run rest).1, ((s.step op).2.run rest).2) :=
  rfl

/-- A session holds what fits of the contents of another, after each step, and
answers it as `boundedAnswer` says. -/
structure KeepsUpTo (limit : Nat) (refusal : FormatError) (steps : List Step)
    (free bounded : Session) : Prop where
  contents : ∀ j, (bounded.after steps j).sink.contents =
    (free.after steps j).sink.contents.take limit
  answers : ∀ j < steps.length, ∃ answer, (free.run steps).1[j]? = some answer ∧
    (bounded.run steps).1[j]? = some (boundedAnswer limit refusal
      (free.after steps j).sink.contents (free.after steps (j + 1)).sink.contents answer)

/-- A whole run on both sides. -/
theorem Follows.run {limit : Nat} {refusal : FormatError} {free bounded : Session}
    (h : Follows limit refusal free bounded) {steps : List Step} (hsteps : Step.flush ∉ steps) :
    KeepsUpTo limit refusal steps free bounded := by
  induction steps generalizing free bounded with
  | nil =>
    refine ⟨fun j => ?_, fun j hj => absurd hj (Nat.not_lt_zero j)⟩
    simp only [after, List.take_nil, Session.run]
    exact h.contents
  | cons op rest ih =>
    have hop : op ≠ .flush := fun heq => hsteps (by simp [heq])
    obtain ⟨hnext, hanswer⟩ := h.step hop
    have hrest := ih hnext fun hmem => hsteps (List.mem_cons_of_mem op hmem)
    refine ⟨fun j => ?_, fun j hj => ?_⟩
    · cases j with
      | zero => exact h.contents
      | succ j => exact hrest.contents j
    · rw [run_cons, run_cons]
      cases j with
      | zero =>
        rw [List.getElem?_cons_zero, List.getElem?_cons_zero, hanswer]
        exact ⟨_, rfl, rfl⟩
      | succ j =>
        rw [List.getElem?_cons_succ, List.getElem?_cons_succ]
        exact hrest.answers j (Nat.lt_of_succ_lt_succ hj)

/-- What each write keeps of a target, a run of steps keeps. -/
theorem run_keeps {p : Target → Prop}
    (hp : ∀ bytes t, p t → p (Action.left (Target.write bytes t))) {steps : List Step}
    (hsteps : Step.flush ∉ steps) {s : Session} (hs : p s.sink.target) :
    p (s.run steps).2.sink.target := by
  induction steps generalizing s with
  | nil => exact hs
  | cons op rest ih =>
    have hop : op ≠ .flush := fun heq => hsteps (by simp [heq])
    have hkeep := Sink.putAll_keeps hp op.script.pieces hs
    have hstep : p (s.step op).2.sink.target := by
      cases h : Sink.putAll op.script.pieces s.sink with
      | ok _ t =>
        rw [h] at hkeep
        rw [(step_delivered hop h).2]
        exact hkeep
      | error e t =>
        rw [h] at hkeep
        rw [(step_refused h).2]
        exact hkeep
    exact ih (fun hmem => hsteps (List.mem_cons_of_mem op hmem)) hstep

/-- A session on memory that is empty. -/
def onMemory (encodings : Nat) (context shared : Context) : Session :=
  ⟨⟨encodings, .memory #[]⟩, context, shared⟩

/-- A session on a buffer that is empty, over a destination. -/
def onBuffer (cells : Array UInt8) (encodings : Nat) (context shared : Context) : Session :=
  ⟨⟨encodings, (Sink.onto cells).target⟩, context, shared⟩

/-- A session on a stream to a writer. -/
def onWriter (w : Writer) (encodings : Nat) (context shared : Context) : Session :=
  ⟨⟨encodings, .stream w 0⟩, context, shared⟩

variable (encodings : Nat) (c₁ c₂ s₁ s₂ : Context)

theorem follows_onBuffer (cells : Array UInt8) :
    Follows cells.size (.bufferOverflow cells.size) (onMemory encodings c₁ s₁)
      (onBuffer cells encodings c₂ s₂) where
  memory := ⟨#[], rfl⟩
  encodings := rfl
  limited := ⟨rfl, rfl⟩
  contents := by
    show (Buffer.filled { cells }).toList = (#[] : Array UInt8).toList.take cells.size
    rw [Buffer.toList_filled]
    simp

theorem follows_onWriter {w : Writer} {limit : Nat} (hlimit : w.limit = some limit)
    (hheld : w.held = #[]) (hmoves : w.Moves) :
    Follows limit (.io w.refusal) (onMemory encodings c₁ s₁) (onWriter w encodings c₂ s₂) where
  memory := ⟨#[], rfl⟩
  encodings := rfl
  limited := ⟨hlimit, hmoves, by rw [hheld]; exact Nat.zero_le limit, rfl⟩
  contents := by
    show w.held.toList = (#[] : Array UInt8).toList.take limit
    rw [hheld]
    simp

/-- The destination of a buffer is only written from its front. -/
theorem over_onBuffer (cells : Array UInt8) {steps : List Step} (hsteps : Step.flush ∉ steps)
    (j : Nat) :
    ∃ b, ((onBuffer cells encodings c₂ s₂).after steps j).sink.target = .buffer b ∧
      b.capacity = cells.size ∧ b.cells.toList.drop b.length = cells.toList.drop b.length := by
  have hstart : Target.Over cells (onBuffer cells encodings c₂ s₂).sink.target := ⟨rfl, rfl⟩
  have hover := run_keeps (p := Target.Over cells) (fun bytes t ht => ht.write bytes)
    (fun hmem => hsteps (List.mem_of_mem_take (i := j) hmem)) hstart
  unfold after
  revert hover
  cases ((onBuffer cells encodings c₂ s₂).run (steps.take j)).2.sink.target with
  | memory held => exact False.elim
  | stream w n => exact False.elim
  | buffer b => exact fun h => ⟨b, rfl, h⟩

/-- Steps on a buffer over a destination, or on a writer with a limit, beside
the same steps on memory. After each step the destination holds the longest part
of what is in memory that it has room for, and no cell behind that part was
touched; a step is refused exactly if it puts out bytes and they do not fit. -/
theorem limited_sessions (steps : List Step) (hsteps : Step.flush ∉ steps) :
    (∀ cells : Array UInt8,
      KeepsUpTo cells.size (.bufferOverflow cells.size) steps (onMemory encodings c₁ s₁)
          (onBuffer cells encodings c₂ s₂) ∧
        ∀ j, ∃ b, ((onBuffer cells encodings c₂ s₂).after steps j).sink.target = .buffer b ∧
          b.length ≤ cells.size ∧ b.capacity = cells.size ∧
          b.cells.toList.drop b.length = cells.toList.drop b.length) ∧
    ∀ (w : Writer) (limit : Nat), w.limit = some limit → w.held = #[] → w.Moves →
      KeepsUpTo limit (.io w.refusal) steps (onMemory encodings c₁ s₁)
        (onWriter w encodings c₂ s₂) := by
  refine ⟨fun cells => ⟨?_, fun j => ?_⟩, fun w limit hlimit hheld hmoves => ?_⟩
  · exact (follows_onBuffer encodings c₁ c₂ s₁ s₂ cells).run hsteps
  · obtain ⟨b, ht, hcap, hdrop⟩ := over_onBuffer encodings c₂ s₂ cells hsteps j
    exact ⟨b, ht, hcap ▸ b.length_le_capacity, hcap, hdrop⟩
  · exact (follows_onWriter encodings c₁ c₂ s₁ s₂ hlimit hheld hmoves).run hsteps

/-- Three cells, and a writer that takes three bytes one by one, for output that
comes to six: the second step is cut, and the third leaves nothing. A step that
puts out nothing is answered still. -/
theorem limited_sessions_three :
    let steps : List Step :=
      [.write (ascii "ab"), .render (ascii "%d") [.int 42] {}, .fill zero 2, .write []]
    let w : Writer := { limit := some 3, chunk := some 1 }
    let memory := onMemory 0 {} {}
    let buffer := onBuffer #[7, 8, 9] 0 {} {}
    let writer := onWriter w 0 {} {}
    Step.flush ∉ steps ∧ w.limit = some 3 ∧ w.held = #[] ∧ w.Moves ∧
      KeepsUpTo 3 (.bufferOverflow 3) steps memory buffer ∧
      KeepsUpTo 3 (.io .full) steps memory writer ∧
      (memory.run steps).2.sink.contents = ascii "ab4200" ∧
      (buffer.run steps).2.sink.contents = ascii "ab4" ∧
      (writer.run steps).2.sink.contents = ascii "ab4" ∧
      (memory.run steps).1 = [.ok none, .ok (some 2), .ok none, .ok none] ∧
      (buffer.run steps).1 =
        [.ok none, .error (.bufferOverflow 3), .error (.bufferOverflow 3), .ok none] ∧
      (writer.run steps).1 =
        [.ok none, .error (.io .full), .error (.io .full), .ok none] := by
  intro steps w memory buffer writer
  have hsteps : Step.flush ∉ steps := by simp [steps]
  have hw : w.Moves := ⟨by decide, fun n => nofun⟩
  obtain ⟨hbuffer, hwriter⟩ := limited_sessions 0 {} {} {} {} steps hsteps
  exact ⟨hsteps, rfl, rfl, hw, (hbuffer #[7, 8, 9]).1, hwriter w 3 rfl rfl hw,
    by decide +kernel, by decide +kernel, by decide +kernel, by decide +kernel,
    by decide +kernel, by decide +kernel⟩

end Session
end PrintFormat
