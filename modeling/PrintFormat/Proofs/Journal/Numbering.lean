import PrintFormat.Journal.Validation
import PrintFormat.Proofs.Text.Layout
import PrintFormat.Proofs.Text.Parts

/-!
The numbers of lines. What the validator says of a line is a matter of its text
alone; a blank line is not counted but has a number (`checkLines_eq`). So a file
behind whole lines is reported as it is on its own, with its lines numbered on
(`checkContents_append`).
-/
namespace PrintFormat.Journal

/-! ## Lines -/

/-- What is wrong with a line by itself. A blank line is passed over. -/
def lineComplaints (line : String) : List Complaint :=
  if Text.trim line = "" then []
  else
    match checkText (Text.trim line) with
    | .ok _ => []
    | .error found => found

/-- The problem of the same kind some lines further on. -/
def Problem.later (count : Nat) (p : Problem) : Problem := { p with line := p.line + count }

/-- What is wrong with lines that are numbered from a number on. -/
def problemsFrom (number : Nat) (lines : List String) : List Problem :=
  (lines.zipIdx number).flatMap fun part => (lineComplaints part.1).map (Problem.mk part.2)

theorem problemsFrom_cons (number : Nat) (line : String) (rest : List String) :
    problemsFrom number (line :: rest) =
      (lineComplaints line).map (Problem.mk number) ++ problemsFrom (number + 1) rest := by
  rw [problemsFrom, List.zipIdx_cons, List.flatMap_cons]
  rfl

theorem problemsFrom_append (number : Nat) (lines more : List String) :
    problemsFrom number (lines ++ more) =
      problemsFrom number lines ++ problemsFrom (number + lines.length) more := by
  rw [problemsFrom, List.zipIdx_append, List.flatMap_append]
  rfl

/-- Lines numbered on have the same problems. -/
theorem problemsFrom_add (number count : Nat) (lines : List String) :
    problemsFrom (number + count) lines = (problemsFrom number lines).map (Problem.later count) := by
  induction lines generalizing number with
  | nil => rfl
  | cons line rest ih =>
    have hnext : number + count + 1 = number + 1 + count := Nat.add_right_comm number count 1
    rw [problemsFrom_cons, problemsFrom_cons, hnext, ih, List.map_append, List.map_map]
    rfl

/-- Each line is judged by itself. -/
theorem checkLines_eq (number : Nat) (lines : List String) :
    checkLines number lines =
      (lines.countP fun line => Text.trim line ≠ "", problemsFrom number lines) := by
  induction lines generalizing number with
  | nil => rfl
  | cons line rest ih =>
    rw [checkLines, ih, problemsFrom_cons, List.countP_cons, lineComplaints]
    by_cases hblank : Text.trim line = ""
    · simp [hblank]
    · cases hcheck : checkText (Text.trim line) with
      | ok e => simp [hblank, checkLine, hcheck, Except.mapError]
      | error found => simp [hblank, checkLine, hcheck, Except.mapError]

/-! ## Files -/

/-- What the validator says of a file, line by line. -/
theorem checkFile_eq (text : String) :
    checkFile text =
      ((fileLines text).countP fun line => Text.trim line ≠ "", problemsFrom 1 (fileLines text)) :=
  checkLines_eq 1 (fileLines text)

theorem length_fileLines (text : String) :
    (fileLines text).length = text.toList.count '\n' + 1 := by
  rw [fileLines, List.length_map, Text.length_split, List.count]
  rfl

section

variable {a front : String} (h : a.toList = front.toList ++ ['\n'])
include h

/-- Behind a line feed other lines begin. -/
theorem fileLines_append (b : String) : fileLines (a ++ b) = fileLines front ++ fileLines b := by
  rw [fileLines, String.toList_append, h, List.append_assoc, List.singleton_append,
    Text.split_between (by decide), List.map_append]
  rfl

theorem checkFile_append (b : String) :
    checkFile (a ++ b) =
      ((checkFile a).1 + (checkFile b).1,
        (checkFile a).2 ++ (checkFile b).2.map (Problem.later (a.toList.count '\n'))) := by
  have hcount : a.toList.count '\n' = (fileLines front).length := by
    rw [h, length_fileLines, List.count_append, List.count_singleton_self]
  -- the line that would begin behind the last line feed is blank
  have hfirst : fileLines a = fileLines front ++ [""] := by
    rw [← String.append_empty (s := a), fileLines_append h]
    rfl
  have hblank : problemsFrom (1 + (fileLines front).length) [""] = [] := rfl
  simp only [checkFile_eq, fileLines_append h, hfirst, problemsFrom_append, hblank, List.append_nil,
    hcount, problemsFrom_add, List.countP_append]
  rfl

end

/-- A file of whole lines, or an empty one, with a file behind it: the counts of
lines that are not blank add up, and the problems of the second file come behind
those of the first, with their lines numbered on by the line feeds of the first.
What is said of any file is said of its lines by themselves: those that are not
blank are counted, and all are numbered. -/
theorem checkContents_append {a b : Bytes} {s t : String} (ha : Text.decode? a = some s)
    (hb : Text.decode? b = some t) (hend : a = [] ∨ a.getLast? = some 10) :
    ∃ first second, checkContents? a = some first ∧ checkContents? b = some second ∧
      checkContents? (a ++ b) =
        some (first.1 + second.1, first.2 ++ second.2.map (Problem.later (a.count 10))) ∧
      ∀ text, checkFile text =
        ((fileLines text).countP fun line => Text.trim line ≠ "",
          problemsFrom 1 (fileLines text)) := by
  have hboth : Text.decode? (a ++ b) = some (s ++ t) := by
    rw [Text.decode?_eq_some] at ha hb ⊢
    rw [Text.encode_append, ha, hb]
  refine ⟨checkFile s, checkFile t, ?_, ?_, ?_, checkFile_eq⟩
  · rw [checkContents?, ha, Option.map_some]
  · rw [checkContents?, hb, Option.map_some]
  rw [checkContents?, hboth, Option.map_some, Option.some_inj]
  obtain rfl := Text.decode?_eq_some.mp ha
  have hfeed : ('\n' : Char).toNat < 0x80 := by decide
  have hcount : (Text.encode s).count 10 = s.toList.count '\n' := Text.count_encode hfeed s
  rw [hcount]
  obtain hnil | hlast := hend
  · obtain rfl : s = "" := Text.encode_injective hnil
    have hsame : Problem.later 0 = id := rfl
    have hempty : checkFile "" = (0, []) := rfl
    rw [String.empty_append, String.toList_empty, List.count_nil, hsame, List.map_id, hempty,
      Nat.zero_add, List.nil_append]
  · obtain ⟨front, hfront⟩ := Text.getLast?_of_encode hfeed hlast
    exact checkFile_append hfront t

/-- A file with a blank line, line ends of two characters and a line that is no
document, and behind it one with a line that is no object, without an end. -/
theorem checkContents_append_blank :
    let a := ascii "\r\n\x7b\r\n"
    let b := ascii " \t\n[]"
    Text.decode? a = some "\r\n\x7b\r\n" ∧ Text.decode? b = some " \t\n[]" ∧
      a.getLast? = some 10 ∧ checkContents? a = some (1, [⟨2, .noJson⟩]) ∧
      checkContents? b = some (1, [⟨2, .noObject⟩]) ∧
      checkContents? (a ++ b) = some (2, [⟨2, .noJson⟩, ⟨4, .noObject⟩]) := by
  intro a b
  have ha : Text.decode? a = some "\r\n\x7b\r\n" := Text.decode?_eq_some.mpr (by decide +kernel)
  have hb : Text.decode? b = some " \t\n[]" := Text.decode?_eq_some.mpr (by decide +kernel)
  have hend : a.getLast? = some 10 := by decide
  have hfirst : checkContents? a = some (1, [⟨2, .noJson⟩]) := by
    rw [checkContents?, ha]
    cbv
  have hsecond : checkContents? b = some (1, [⟨2, .noObject⟩]) := by
    rw [checkContents?, hb]
    cbv
  obtain ⟨first, second, hfirst', hsecond', hboth, -⟩ := checkContents_append ha hb (.inr hend)
  obtain rfl := Option.some.inj (hfirst.symm.trans hfirst')
  obtain rfl := Option.some.inj (hsecond.symm.trans hsecond')
  exact ⟨ha, hb, hend, hfirst, hsecond, hboth⟩

end PrintFormat.Journal
