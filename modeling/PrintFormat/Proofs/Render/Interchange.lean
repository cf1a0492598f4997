import PrintFormat.Proofs.Conversion.Table
import PrintFormat.Proofs.Render.Supply

/-!
Arguments that stand for each other. A directive sees an integer, a character, a
truth value or a pointer through the 64 bits of its pattern alone
(`Demand.pick_of_pattern`), so that a render cannot tell lists apart which differ
in the kinds of such arguments (`Transcript.ofSegments_alike`). Where an address
is asked for, its low bits do for it as well (`Transcript.ofFormat_set`).
`Context.render_interchange` says both of renders onto any sink.
-/
namespace PrintFormat

/-! ## Bit patterns -/

/-- What a bit pattern meets a demand with. -/
def Demand.ofPattern : (d : Demand) → BitVec 64 → Option d.Value
  | .integer, v => some v
  | .ipv4, v => some ⟨v.setWidth 32⟩
  | .mac, v => some (Mac.ofWord v)
  | .float, _ | .text, _ | .time, _ | .ipv6, _ => none

theorem Demand.pick_of_pattern {a : Arg} {v : BitVec 64} (h : a.pattern? = some v) (d : Demand) :
    d.pick a = d.ofPattern v := by
  cases a with
  | int n => cases h; cases d <;> rfl
  | uint n => cases h; cases d <;> rfl
  | char c => cases h; cases d <;> rfl
  | bool b => cases h; cases d <;> rfl
  | pointer p => cases h; cases d <;> rfl
  | float v => cases h
  | str s => cases h
  | time t => cases h
  | ipv4 a => cases h
  | ipv6 a => cases h
  | mac a => cases h

/-- The same argument, or two integers with one bit pattern. -/
def Arg.SamePattern (a b : Arg) : Prop :=
  a = b ∨ ∃ v, a.pattern? = some v ∧ b.pattern? = some v

theorem Arg.SamePattern.pick {a b : Arg} (h : a.SamePattern b) (d : Demand) :
    d.pick a = d.pick b := by
  obtain rfl | ⟨v, ha, hb⟩ := h
  · rfl
  · rw [d.pick_of_pattern ha, d.pick_of_pattern hb]

/-- Two cursors at the same place of lists with the same patterns. -/
structure Cursor.Alike (c c' : Cursor) : Prop where
  consumed : c.consumed = c'.consumed
  remaining : List.Forall₂ Arg.SamePattern c.remaining c'.remaining

theorem Cursor.take_alike (demand : Demand) (c c' : Cursor) (h : c.Alike c') :
    Action.Matching Alike (take demand c) (take demand c') := by
  obtain ⟨remaining, consumed⟩ := c
  obtain ⟨remaining', consumed'⟩ := c'
  obtain ⟨hcount, hargs⟩ := h
  simp only at hcount hargs
  subst hcount
  cases hargs with
  | nil => exact ⟨rfl, rfl, .nil⟩
  | cons harg hrest =>
    simp only [take, ← harg.pick demand]
    split
    · exact ⟨rfl, rfl, .cons harg hrest⟩
    · exact ⟨rfl, rfl, hrest⟩

/-- Segments put out the same and end the same way on lists with the same
patterns. -/
theorem Transcript.ofSegments_alike (options : Options) (parts : List Segment) {c c' : Cursor}
    (h : c.Alike c') :
    (ofSegments options parts c).pieces = (ofSegments options parts c').pieces ∧
      (ofSegments options parts c).verdict = (ofSegments options parts c').verdict := by
  induction parts generalizing c c' with
  | nil => exact ⟨rfl, rfl⟩
  | cons seg rest ih =>
    have hseg := (seg.draws_output options).matching Cursor.take_alike h
    cases ho : seg.output options c with
    | ok pieces d =>
      cases ho' : seg.output options c' with
      | ok pieces' d' =>
        rw [ho, ho'] at hseg
        obtain ⟨rfl, hnext⟩ := hseg
        obtain ⟨hpieces, hverdict⟩ := ih hnext
        rw [ofSegments_cons_ok ho, ofSegments_cons_ok ho', pieces_after, pieces_after, hpieces]
        exact ⟨rfl, hverdict⟩
      | error e' d' =>
        rw [ho, ho'] at hseg
        exact hseg.elim
    | error e d =>
      cases ho' : seg.output options c' with
      | ok pieces' d' =>
        rw [ho, ho'] at hseg
        exact hseg.elim
      | error e' d' =>
        rw [ho, ho'] at hseg
        obtain ⟨rfl, -⟩ := hseg
        rw [ofSegments_cons_error ho, ofSegments_cons_error ho']
        exact ⟨rfl, rfl⟩

/-! ## Addresses -/

/-- An extended directive with a conversion byte out of some. -/
def Spelling.IsExtended (s : Spelling) (bytes : Bytes) : Prop :=
  s.bang = true ∧ ∃ b ∈ bytes, s.conversion = some b

/-- A directive of a format takes an argument for its value: the format in front
of the directive renders, its stars find their numbers, and the argument is the
one behind these. -/
def Spelling.Fetches (s : Spelling) (format : Bytes) (args : List Arg) (options : Options)
    (i : Nat) : Prop :=
  ∃ before after, Segment.ofFormat format = before ++ .directive s :: after ∧
    let front := Context.deliver {} #[] (before.flatMap Segment.source) args options
    (∃ n, front.outcome = .ok n) ∧
      ∃ d, s.directive.resolveStars ⟨args.drop front.consumed, front.consumed⟩ =
        .ok () (d, ⟨args.drop i, i⟩)

/-- Two arguments meet a demand with the same value. -/
def Demand.Alike (d : Demand) (a b : Arg) : Prop := ∃ v, d.pick a = some v ∧ d.pick b = some v

theorem Conversion.taken_swap (d : Directive) (options : Options) (c : Extended) {a b : Arg}
    (h : c.demand.Alike a b) (rest : List Arg) (i : Nat) :
    (extended c).taken d options ⟨a :: rest, i⟩ = (extended c).taken d options ⟨b :: rest, i⟩ := by
  obtain ⟨v, ha, hb⟩ := h
  have htake : Cursor.take c.demand ⟨a :: rest, i⟩ = .ok v ⟨rest, i + 1⟩ := by
    simp only [Cursor.take, ha]
  have htake' : Cursor.take c.demand ⟨b :: rest, i⟩ = .ok v ⟨rest, i + 1⟩ := by
    simp only [Cursor.take, hb]
  simp only [taken]
  rw [Action.bind_ok htake, Action.bind_ok htake']

/-- The same of a whole directive, whose stars draw what is in front. -/
theorem Directive.output_swap (d : Directive) (options : Options) {c : Extended} {a b : Arg}
    (h : c.demand.Alike a b) {d' : Directive} {used : List Arg} {k i : Nat}
    (hstars : ∀ more, d.resolved ⟨used ++ more, k⟩ = .ok d' ⟨more, i⟩) (rest : List Arg) :
    d.output options (.extended c) ⟨used ++ a :: rest, k⟩ =
      d.output options (.extended c) ⟨used ++ b :: rest, k⟩ := by
  have hswap := Conversion.taken_swap d' options c h rest i
  rw [output_eq, Action.bind_ok (hstars (a :: rest)), Action.bind_ok (hstars (b :: rest))]
  show EStateM.bind _ _ _ = EStateM.bind _ _ _
  simp only [EStateM.bind, hswap]

/-- An argument that an extended directive takes can be exchanged for another one
that meets its demand with the same value. -/
theorem Transcript.ofFormat_set {options : Options} {format : Bytes} {args : List Arg}
    {s : Spelling} {i : Nat} (hs : s.Fetches format args options i) {c : Extended}
    (hc : s.directive.conversion? = some (.extended c)) {a b : Arg} (hi : args[i]? = some a)
    (hab : c.demand.Alike a b) :
    ofFormat options format (args.set i b) = ofFormat options format args := by
  obtain ⟨before, after, hsplit, ⟨n, hn⟩, d, hstars⟩ := hs
  obtain ⟨hverdict, -⟩ := (Context.deliver_outcome_eq_ok_iff ..).mp hn
  have hon : (ofSegments options before ⟨args, 0⟩).cursor.On args := ofSegments_on before rfl
  rw [ofFormat, Segment.ofFormat_before hsplit] at hverdict
  rw [Context.deliver_eq, ofFormat, Segment.ofFormat_before hsplit, delivery, ← hon,
    ← Directive.resolved_ok_iff] at hstars
  -- the arguments in front: those of the directives before this one, and its stars
  obtain ⟨used, hused, hcount, hrun⟩ := ofSegments_front hverdict
  obtain ⟨used', hused', hcount', hrun'⟩ := s.directive.draws_resolved.ok_front hstars
  have hlength : (used ++ used').length = i := by
    simp only [Nat.zero_add] at hcount hcount'
    rw [List.length_append, hcount', hcount]
  obtain ⟨hlt, rfl⟩ := List.getElem?_eq_some_iff.mp hi
  have hdrop := List.drop_eq_getElem_cons hlt
  have hargs : args = used ++ used' ++ args[i] :: args.drop (i + 1) := by
    rw [← hdrop, List.append_assoc, ← hused', ← hused]
  have hset : args.set i b = used ++ used' ++ b :: args.drop (i + 1) := by
    conv_lhs => rw [hargs]
    rw [List.set_append_right _ _ (Nat.le_of_eq hlength), hlength, Nat.sub_self,
      List.set_cons_zero]
  have hwhole (x : Arg) : ofFormat options format (used ++ used' ++ x :: args.drop (i + 1)) =
      (ofSegments options (.directive s :: after)
        ⟨used' ++ x :: args.drop (i + 1),
          (ofSegments options before ⟨args, 0⟩).cursor.consumed⟩).after
        (ofSegments options before ⟨args, 0⟩).pieces := by
    have hfront := hrun (used' ++ x :: args.drop (i + 1))
    rw [ofFormat, hsplit, List.append_assoc, ofSegments_append_ok (by rw [hfront]), hfront]
  have hswap := s.directive.output_swap options hab hrun' (args.drop (i + 1))
  rw [hset, hwhole b]
  conv_rhs => rw [hargs, hwhole args[i]]
  simp only [ofSegments, Segment.output_converted hc, hswap]

theorem Spelling.IsExtended.ipv4 {s : Spelling} (h : s.IsExtended (ascii "i")) :
    s.directive.conversion? = some (.extended .ipv4) := by
  obtain ⟨hbang, b, hb, hconversion⟩ := h
  change b ∈ [105] at hb
  obtain rfl := List.mem_singleton.mp hb
  exact conversion?_of_extended hbang hconversion rfl

theorem Spelling.IsExtended.mac {s : Spelling} (h : s.IsExtended (ascii "mMcC")) :
    ∃ c : Extended, s.directive.conversion? = some (.extended c) ∧ c.demand = .mac := by
  obtain ⟨hbang, b, hb, hconversion⟩ := h
  change b ∈ [109, 77, 99, 67] at hb
  obtain rfl | rfl | rfl | rfl : b = 109 ∨ b = 77 ∨ b = 99 ∨ b = 67 := by simpa using hb
  · exact ⟨.mac, conversion?_of_extended hbang hconversion rfl, rfl⟩
  · exact ⟨.macUpper, conversion?_of_extended hbang hconversion rfl, rfl⟩
  · exact ⟨.dotted, conversion?_of_extended hbang hconversion rfl, rfl⟩
  · exact ⟨.dottedUpper, conversion?_of_extended hbang hconversion rfl, rfl⟩

/-! ## Renders -/

namespace Context

variable (context : Context) (sink : Sink) (format : Bytes) (options : Options)

theorem render_alike {args args' : List Arg} (h : List.Forall₂ Arg.SamePattern args args') :
    (context.render sink format args options).Same
      (context.render sink format args' options) := by
  have halike : Cursor.Alike ⟨args, 0⟩ ⟨args', 0⟩ := ⟨rfl, h⟩
  obtain ⟨hpieces, hverdict⟩ :=
    Transcript.ofSegments_alike options (Segment.ofFormat format) halike
  exact context.render_same sink hpieces hverdict

theorem render_set {format : Bytes} {args : List Arg} {options : Options} {s : Spelling} {i : Nat}
    (hs : s.Fetches format args options i) {c : Extended}
    (hc : s.directive.conversion? = some (.extended c)) {a b : Arg} (hi : args[i]? = some a)
    (hab : c.demand.Alike a b) :
    (context.render sink format args options).Same
      (context.render sink format (args.set i b) options) := by
  have hset := Transcript.ofFormat_set hs hc hi hab
  exact context.render_same sink (by rw [hset]) (by rw [hset])

/-- A render is the same, in what it leaves in the sink and in how it ends, for
arguments with the same bit patterns, whatever kinds of integers they are. An
address that an extended directive takes can be given as an integer as well, of
which only the bits of the address count. -/
theorem render_interchange (context : Context) (sink : Sink) (format : Bytes) (args : List Arg)
    (options : Options) :
    let whole := context.render sink format args options
    (∀ args', List.Forall₂ Arg.SamePattern args args' →
      whole.Same (context.render sink format args' options)) ∧
    ∀ (s : Spelling) (i : Nat) (b : Arg) (v : BitVec 64),
      s.Fetches format args options i → b.pattern? = some v →
        (s.IsExtended (ascii "i") → ∀ a, args[i]? = some (.ipv4 a) → v.setWidth 32 = a.packed →
          whole.Same (context.render sink format (args.set i b) options)) ∧
        (s.IsExtended (ascii "mMcC") → ∀ a, args[i]? = some (.mac a) →
          v.setWidth 48 = a.packed →
          whole.Same (context.render sink format (args.set i b) options)) := by
  intro whole
  refine ⟨fun args' => context.render_alike sink format options, ?_⟩
  intro s i b v hs hb
  refine ⟨?_, ?_⟩
  · intro hextended a hi hv
    refine context.render_set sink hs hextended.ipv4 hi ⟨a, rfl, ?_⟩
    rw [Demand.pick_of_pattern hb]
    exact congrArg (fun w => some (IPv4.mk w)) hv
  · intro hextended a hi hv
    obtain ⟨c, hc, hdemand⟩ := hextended.mac
    refine context.render_set sink hs hc hi ?_
    rw [hdemand]
    refine ⟨a, rfl, ?_⟩
    rw [Demand.pick_of_pattern hb]
    exact congrArg (fun w => some (Mac.mk w)) hv

/-- A number, a width from a truth value and both kinds of addresses: with other
kinds of integers, and with integers of too many bits for the addresses. -/
theorem render_interchange_packed :
    let format := ascii "%d %!*i %!M"
    let args : List Arg := [.int (-1), .bool true, .ipv4 ⟨0x0A000001⟩, .mac ⟨0x0123456789AB⟩]
    let whole := Context.render {} .empty format args {}
    whole.sink.contents = ascii "-1 10.0.0.1 01:23:45:67:89:AB" ∧
      whole.Same (Context.render {} .empty format
        [.uint 0xFFFFFFFFFFFFFFFF, .char 1, .ipv4 ⟨0x0A000001⟩, .mac ⟨0x0123456789AB⟩] {}) ∧
      whole.Same (Context.render {} .empty format (args.set 2 (.uint 0xFF0A000001)) {}) ∧
      whole.Same
        (Context.render {} .empty format (args.set 3 (.pointer 0xFFFF0123456789AB)) {}) := by
  let number : Spelling := { conversion := some 100 }
  let octets : Spelling := { bang := true, widthFlags := ascii "*", conversion := some 105 }
  let groups : Spelling := { bang := true, conversion := some 77 }
  have hsplit : Segment.ofFormat (ascii "%d %!*i %!M") =
      [.directive number, .literal (ascii " "), .directive octets, .literal (ascii " "),
        .directive groups] := by cbv
  obtain ⟨halike, hpacked⟩ := render_interchange {} .empty (ascii "%d %!*i %!M")
    [.int (-1), .bool true, .ipv4 ⟨0x0A000001⟩, .mac ⟨0x0123456789AB⟩] {}
  have hoctets : octets.Fetches (ascii "%d %!*i %!M")
      [.int (-1), .bool true, .ipv4 ⟨0x0A000001⟩, .mac ⟨0x0123456789AB⟩] {} 2 :=
    ⟨[.directive number, .literal (ascii " ")], [.literal (ascii " "), .directive groups],
      hsplit, ⟨3, by cbv⟩, octets.directive.withStarWidth 1, by cbv⟩
  have hgroups : groups.Fetches (ascii "%d %!*i %!M")
      [.int (-1), .bool true, .ipv4 ⟨0x0A000001⟩, .mac ⟨0x0123456789AB⟩] {} 3 :=
    ⟨[.directive number, .literal (ascii " "), .directive octets, .literal (ascii " ")], [],
      hsplit, ⟨12, by cbv⟩, groups.directive, by cbv⟩
  refine ⟨by cbv, halike _ ?_, (hpacked octets 2 _ _ hoctets rfl).1 ?_ _ rfl rfl,
    (hpacked groups 3 _ _ hgroups rfl).2 ?_ _ rfl rfl⟩
  · exact .cons (.inr ⟨_, rfl, rfl⟩) (.cons (.inr ⟨_, rfl, rfl⟩)
      (.cons (.inl rfl) (.cons (.inl rfl) .nil)))
  · exact ⟨rfl, 105, by decide, rfl⟩
  · exact ⟨rfl, 77, by decide, rfl⟩

end Context
end PrintFormat
