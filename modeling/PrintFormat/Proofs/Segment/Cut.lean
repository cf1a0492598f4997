import PrintFormat.Proofs.Directive.Reading
import PrintFormat.Segment

/-!
Formats cut between two segments, and formats put together. A cut between two
segments leaves those in front of it as they were (`ofFormat_before`). Two formats
put together have the segments of the one and then those of the other, if the
first does not end within a directive; only a literal run may go on over the seam
(`ofFormat_append`).
-/
namespace PrintFormat.Segment

theorem ofFormat_nil : ofFormat [] = [] := by
  rw [ofFormat]

theorem ofFormat_literal {b : UInt8} (hb : isLiteral b = true) (rest : Bytes) :
    ofFormat (b :: rest) =
      literal (b :: rest.takeWhile isLiteral) :: ofFormat (rest.dropWhile isLiteral) := by
  rw [ofFormat, if_pos hb]

theorem ofFormat_percent (rest : Bytes) :
    ofFormat (percent :: rest) =
      directive (Spelling.read rest).1 :: ofFormat (Spelling.read rest).2 := by
  rw [ofFormat, if_neg (by decide)]

theorem ofFormat_eq_nil {format : Bytes} (h : ofFormat format = []) : format = [] := by
  rw [← source_ofFormat format, h, List.flatMap_nil]

/-- A run that is followed by nothing or by a percent sign is a run of its own. -/
theorem ofFormat_run {b : UInt8} {run behind : Bytes} (hb : isLiteral b = true)
    (hrun : ∀ c ∈ run, isLiteral c = true) (hbehind : ∀ c ∈ behind.head?, isLiteral c = false) :
    ofFormat (b :: (run ++ behind)) = literal (b :: run) :: ofFormat behind := by
  have htake : behind.takeWhile isLiteral = [] := by
    cases behind with
    | nil => rfl
    | cons c behind => rw [List.takeWhile_cons_of_neg (by simp [hbehind c rfl])]
  have hdrop : behind.dropWhile isLiteral = behind := by
    cases behind with
    | nil => rfl
    | cons c behind => rw [List.dropWhile_cons_of_neg (by simp [hbehind c rfl])]
  rw [ofFormat_literal hb, List.takeWhile_append_of_pos hrun, List.dropWhile_append_of_pos hrun,
    htake, hdrop, List.append_nil]

theorem head_dropWhile (text : Bytes) :
    ∀ c ∈ (text.dropWhile isLiteral).head?, isLiteral c = false := by
  intro c hc
  have h := List.head?_dropWhile_not isLiteral text
  rw [Option.mem_def.mp hc] at h
  simpa using h

theorem mem_takeWhile {text : Bytes} : ∀ c ∈ text.takeWhile isLiteral, isLiteral c = true :=
  fun _ hc => List.mem_takeWhile_imp hc

/-! ## Cuts -/

/-- The segments in front of a cut are those of the text in front of it. -/
theorem ofFormat_before {format : Bytes} {before after : List Segment}
    (h : ofFormat format = before ++ after) : ofFormat (before.flatMap source) = before := by
  fun_induction ofFormat format generalizing before with
  | case1 =>
    obtain ⟨rfl, -⟩ := List.append_eq_nil_iff.mp h.symm
    exact ofFormat_nil
  | case2 b rest hb ih =>
    obtain ⟨rfl, -⟩ | ⟨before, rfl, hrest⟩ := List.cons_eq_append_iff.mp h
    · exact ofFormat_nil
    · have hsource := source_ofFormat (rest.dropWhile isLiteral)
      rw [hrest, List.flatMap_append] at hsource
      -- what is behind the run is the front of what was behind it
      have hhead : ∀ c ∈ (before.flatMap source).head?, isLiteral c = false := by
        intro c hc
        refine head_dropWhile rest c ?_
        rw [← hsource, List.head?_append]
        exact Option.or_eq_some_iff.mpr (.inl hc)
      rw [List.flatMap_cons, source, List.cons_append, ofFormat_run hb mem_takeWhile hhead,
        ih hrest]
  | case3 b rest hb ih =>
    have hb' : b = percent := by simpa [isLiteral] using hb
    obtain ⟨rfl, -⟩ | ⟨before, rfl, hrest⟩ := List.cons_eq_append_iff.mp h
    · exact ofFormat_nil
    · have hsource := source_ofFormat (Spelling.read rest).2
      rw [hrest, List.flatMap_append] at hsource
      rw [List.flatMap_cons, source, Spelling.source, List.cons_append, ofFormat_percent,
        Spelling.read_front hsource.symm, ih hrest]

/-! ## Formats put together -/

/-- A format that does not end within a directive: each directive in it has its
conversion byte. -/
def Complete (format : Bytes) : Prop :=
  ∀ s, directive s ∈ ofFormat format → s.conversion.isSome

/-- A segment that is not a directive without its conversion byte. -/
def isWhole : Segment → Bool
  | literal _ => true
  | directive s => s.conversion.isSome

theorem complete_iff {format : Bytes} :
    Complete format ↔ (ofFormat format).all isWhole = true := by
  rw [List.all_eq_true]
  refine ⟨fun h seg hseg => ?_, fun h s hs => h _ hs⟩
  cases seg with
  | literal text => rfl
  | directive s => exact h s hseg

/-- Segments in a row, where a literal run goes on over the seam. -/
def join : List Segment → List Segment → List Segment
  | [], after => after
  | [literal x], literal y :: after => literal (x ++ y) :: after
  | seg :: before, after => seg :: join before after

theorem join_cons_of_ne_nil (seg : Segment) {before : List Segment} (h : before ≠ [])
    (after : List Segment) : join (seg :: before) after = seg :: join before after := by
  cases before with
  | nil => exact absurd rfl h
  | cons seg' before => cases seg <;> rfl

theorem join_directive (s : Spelling) (before after : List Segment) :
    join (directive s :: before) after = directive s :: join before after := by
  cases before <;> rfl

/-- A literal run goes on into the format behind it. -/
theorem ofFormat_run_append {b : UInt8} {run : Bytes} (hb : isLiteral b = true)
    (hrun : ∀ c ∈ run, isLiteral c = true) (g : Bytes) :
    ofFormat (b :: (run ++ g)) = join [literal (b :: run)] (ofFormat g) := by
  by_cases hg : ∀ c ∈ g.head?, isLiteral c = false
  · rw [ofFormat_run hb hrun hg]
    cases g with
    | nil => rw [ofFormat_nil]; rfl
    | cons c g =>
      have hc : c = percent := by simpa [isLiteral] using hg c rfl
      rw [hc, ofFormat_percent]
      rfl
  · cases g with
    | nil => exact absurd (by simp) hg
    | cons c g =>
      have hc : isLiteral c = true := by simpa using hg
      rw [ofFormat_literal hb, ofFormat_literal hc, List.takeWhile_append_of_pos hrun,
        List.dropWhile_append_of_pos hrun, List.takeWhile_cons_of_pos hc,
        List.dropWhile_cons_of_pos hc]
      rfl

/-- The segments of two formats put together. -/
theorem ofFormat_append {f : Bytes} (hf : Complete f) (g : Bytes) :
    ofFormat (f ++ g) = join (ofFormat f) (ofFormat g) := by
  unfold Complete at hf
  fun_induction ofFormat f with
  | case1 => rfl
  | case2 b rest hb ih =>
    have ih := ih fun s hs => hf s (List.mem_cons_of_mem _ hs)
    have hsplit := List.takeWhile_append_dropWhile (p := isLiteral) (l := rest)
    cases hdrop : rest.dropWhile isLiteral with
    -- the run goes up to the seam
    | nil =>
      rw [hdrop, List.append_nil] at hsplit
      rw [ofFormat_nil, hsplit]
      exact ofFormat_run_append hb (fun c hc => mem_takeWhile c (hsplit.symm ▸ hc)) g
    -- the run ends at a percent sign in front of the seam
    | cons c more =>
      rw [hdrop] at ih hsplit
      have hhead : ∀ c' ∈ (c :: more ++ g).head?, isLiteral c' = false := by
        have := head_dropWhile rest
        rwa [hdrop] at this
      have hne : ofFormat (c :: more) ≠ [] := mt ofFormat_eq_nil (List.cons_ne_nil c more)
      rw [join_cons_of_ne_nil _ hne, ← ih, ← ofFormat_run hb mem_takeWhile hhead,
        ← List.append_assoc, hsplit, List.cons_append]
  | case3 b rest hb ih =>
    have hb' : b = percent := by simpa [isLiteral] using hb
    have ih := ih fun s hs => hf s (List.mem_cons_of_mem _ hs)
    have hconv := hf _ List.mem_cons_self
    have hread := (Spelling.read_append_iff hconv rest (Spelling.read rest).2 g).mpr rfl
    rw [join_directive, ← ih, List.cons_append, hb', ofFormat_percent, hread]

end PrintFormat.Segment
