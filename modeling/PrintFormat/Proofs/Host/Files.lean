import Mathlib
import PrintFormat.Host.Memory

/-!
Files in a tree. A file that is put where no directory is, in a directory that is
there, is found again and leaves what is apart from it alone. All directories stay
and none is made (`Settable.grows`), so every path that could be walked before
still leads the same way, and a path that could become a file still can
(`resolve_of_grows`, `resolveNew_of_grows`).
-/
namespace PrintFormat

namespace FileNode

variable {t t' : FileNode} {way w : List String}

/-! ## Ways -/

theorem find?_append (front back : List String) (t : FileNode) :
    t.find? (front ++ back) = (t.find? front).bind (find? back) := by
  induction front generalizing t with
  | nil => rfl
  | cons name front ih =>
    rw [List.cons_append, find?, find?, Option.bind_assoc]
    exact congrArg _ (funext fun node => ih node)

theorem find?_cons_file (name : String) (rest : List String) (bytes : Bytes) :
    (file bytes).find? (name :: rest) = none := rfl

theorem find?_empty {way : List String} (h : way ≠ []) : empty.find? way = none := by
  cases way with
  | nil => exact absurd rfl h
  | cons name rest => rfl

/-- What something is found behind is a directory. -/
theorem exists_directory {front back : List String} (hne : back ≠ []) {node : FileNode}
    (h : t.find? (front ++ back) = some node) :
    ∃ entries, t.find? front = some (directory entries) := by
  rw [find?_append] at h
  obtain ⟨middle, hfront, hback⟩ := Option.bind_eq_some_iff.mp h
  cases back with
  | nil => exact absurd rfl hne
  | cons name rest =>
    cases middle with
    | file bytes => cases hback
    | directory entries => exact ⟨entries, hfront⟩

/-! ## Putting a node -/

theorem lookup_setEntry_self (name : String) (node : FileNode)
    (entries : List (String × FileNode)) : (setEntry name node entries).lookup name = some node := by
  induction entries with
  | nil => simp [setEntry]
  | cons entry rest ih =>
    obtain ⟨first, old⟩ := entry
    by_cases hfirst : first = name
    · simp [setEntry, hfirst]
    · have hother : (name == first) = false := beq_eq_false_iff_ne.mpr (Ne.symm hfirst)
      simpa [setEntry, hfirst, List.lookup_cons, hother] using ih

theorem lookup_setEntry_of_ne {name other : String} (h : other ≠ name) (node : FileNode)
    (entries : List (String × FileNode)) :
    (setEntry name node entries).lookup other = entries.lookup other := by
  have hname : (other == name) = false := beq_eq_false_iff_ne.mpr h
  induction entries with
  | nil => rw [setEntry, List.lookup_cons, hname]
  | cons entry rest ih =>
    obtain ⟨first, old⟩ := entry
    by_cases hfirst : first = name
    · rw [setEntry, if_pos hfirst, hfirst, List.lookup_cons, List.lookup_cons, hname]
    · rw [setEntry, if_neg hfirst, List.lookup_cons, List.lookup_cons, ih]

theorem find?_put_append (node : FileNode) (front back : List String) {old : FileNode}
    (h : t.find? front = some old) :
    (put node (front ++ back) t).find? front = some (put node back old) := by
  induction front generalizing t with
  | nil => exact congrArg _ (congrArg _ (Option.some.inj h))
  | cons name front ih =>
    cases t with
    | file bytes => cases h
    | directory entries =>
      obtain ⟨next, hnext, hrest⟩ := Option.bind_eq_some_iff.mp h
      have hentry : entries.lookup name = some next := hnext
      rw [List.cons_append, put, find?, entry?, lookup_setEntry_self, Option.bind_some,
        hentry, Option.getD_some]
      exact ih hrest

theorem find?_put_self (node : FileNode) (way : List String) (t : FileNode) :
    (put node way t).find? way = some node := by
  induction way generalizing t with
  | nil => rfl
  | cons name rest ih =>
    cases t with
    | file bytes =>
      rw [put, find?, entry?, List.lookup_cons, beq_self_eq_true]
      exact ih empty
    | directory entries =>
      rw [put, find?, entry?, lookup_setEntry_self, Option.bind_some]
      exact ih _

/-- A node that is put somewhere is not seen elsewhere. -/
theorem find?_put_apart (node : FileNode) (hw : ¬ w <+: way) (hway : ¬ way <+: w) :
    (put node way t).find? w = t.find? w := by
  induction way generalizing t w with
  | nil => exact absurd List.nil_prefix hway
  | cons name rest ih =>
    cases w with
    | nil => exact absurd List.nil_prefix hw
    | cons other more =>
      by_cases hname : other = name
      · subst hname
        rw [List.cons_prefix_cons, and_iff_right rfl] at hw hway
        have hmore : more ≠ [] := by
          rintro rfl
          exact hw List.nil_prefix
        cases t with
        | file bytes =>
          rw [put, find?, entry?, List.lookup_cons, beq_self_eq_true, find?_cons_file]
          exact (ih hw hway).trans (find?_empty hmore)
        | directory entries =>
          rw [put, find?, entry?, lookup_setEntry_self, Option.bind_some, ih hw hway, find?,
            entry?]
          cases entries.lookup other with
          | none => exact find?_empty hmore
          | some next => rfl
      · cases t with
        | file bytes =>
          rw [put, find?, entry?, List.lookup_cons, beq_eq_false_iff_ne.mpr hname, find?_cons_file]
          rfl
        | directory entries => rw [put, find?, entry?, lookup_setEntry_of_ne hname, find?, entry?]

/-! ## Files -/

/-- A way that a file can be put at: its last step is one in a directory, and it
does not lead to a directory itself. -/
structure Settable (t : FileNode) (way : List String) : Prop where
  parent : ∃ front name entries, way = front ++ [name] ∧ t.find? front = some (directory entries)
  leaf : ∀ entries, t.find? way ≠ some (directory entries)

namespace Settable

variable (h : t.Settable way)
include h

/-- No file is on the way, and nothing that could become one. -/
theorem directory_of_prefix (hw : w <+: way) (hne : w ≠ way) :
    ∃ entries, t.find? w = some (directory entries) := by
  obtain ⟨rest, rfl⟩ := hw
  have hrest : rest ≠ [] := by
    rintro rfl
    exact hne (List.append_nil w).symm
  obtain ⟨front, name, entries, hway, hfront⟩ := h.parent
  have hsplit : front = w ++ rest.dropLast := by
    rw [← List.dropLast_append_of_ne_nil hrest, hway, List.dropLast_concat]
  by_cases hlast : rest.dropLast = []
  · rw [hsplit, hlast, List.append_nil] at hfront
    exact ⟨entries, hfront⟩
  · rw [hsplit] at hfront
    exact exists_directory hlast hfront

theorem not_prefix_of_find? {node : FileNode} (hw : t.find? w = some node) (hne : w ≠ way) :
    ¬ way <+: w := by
  rintro ⟨rest, rfl⟩
  have hrest : rest ≠ [] := by
    rintro rfl
    exact hne (List.append_nil way)
  obtain ⟨entries, hentries⟩ := exists_directory hrest hw
  exact h.leaf entries hentries

/-- Other files stay what they are. -/
theorem find?_put_file (node : FileNode) {bytes : Bytes} (hw : t.find? w = some (file bytes))
    (hne : w ≠ way) : (put node way t).find? w = some (file bytes) := by
  have hprefix : ¬ w <+: way := by
    intro hprefix
    obtain ⟨entries, hentries⟩ := h.directory_of_prefix hprefix hne
    rw [hw] at hentries
    cases hentries
  rw [find?_put_apart node hprefix (h.not_prefix_of_find? hw hne), hw]

/-- Of two ways for files none leads over the other. -/
theorem find?_put_settable (node : FileNode) (hw : t.Settable w) (hne : w ≠ way) :
    (put node way t).find? w = t.find? w := by
  refine find?_put_apart node (fun hprefix => ?_) fun hprefix => ?_
  · obtain ⟨entries, hentries⟩ := h.directory_of_prefix hprefix hne
    exact hw.leaf entries hentries
  · obtain ⟨entries, hentries⟩ := hw.directory_of_prefix hprefix hne.symm
    exact h.leaf entries hentries

end Settable

/-! ## Growing trees -/

/-- All directories stay, with all their names, and there are no others. -/
structure Grows (t t' : FileNode) : Prop where
  kept : ∀ way entries, t.find? way = some (directory entries) →
    ∃ entries', t'.find? way = some (directory entries') ∧
      ∀ name, (entries.lookup name).isSome → (entries'.lookup name).isSome
  none : ∀ way entries', t'.find? way = some (directory entries') →
    ∃ entries, t.find? way = some (directory entries)

theorem Grows.trans {t'' : FileNode} (h : t.Grows t') (h' : t'.Grows t'') : t.Grows t'' := by
  refine ⟨fun way entries hway => ?_, fun way entries hway => ?_⟩
  · obtain ⟨middle, hmiddle, hnames⟩ := h.kept way entries hway
    obtain ⟨last, hlast, hnames'⟩ := h'.kept way middle hmiddle
    exact ⟨last, hlast, fun name hname => hnames' name (hnames name hname)⟩
  · obtain ⟨middle, hmiddle⟩ := h'.none way entries hway
    exact h.none way middle hmiddle

theorem Settable.of_grows (h : t.Settable way) (hgrows : t.Grows t') : t'.Settable way := by
  obtain ⟨⟨front, name, entries, hway, hfront⟩, hleaf⟩ := h
  obtain ⟨entries', hfront', -⟩ := hgrows.kept front entries hfront
  refine ⟨⟨front, name, entries', hway, hfront'⟩, fun found hfound => ?_⟩
  obtain ⟨old, hold⟩ := hgrows.none way found hfound
  exact hleaf old hold

/-- A tree grows by a file. -/
theorem Settable.grows (h : t.Settable way) (bytes : Bytes) : t.Grows (put (file bytes) way t) := by
  refine ⟨fun w entries hw => ?_, fun w entries' hw => ?_⟩
  · have hne : w ≠ way := by
      rintro rfl
      exact h.leaf entries hw
    by_cases hprefix : w <+: way
    · obtain ⟨rest, rfl⟩ := hprefix
      cases rest with
      | nil => exact absurd (List.append_nil w).symm hne
      | cons name rest =>
        refine ⟨_, find?_put_append (file bytes) w (name :: rest) hw, fun other hother => ?_⟩
        by_cases hname : other = name
        · rw [hname, lookup_setEntry_self]
          rfl
        · rwa [lookup_setEntry_of_ne hname]
    · exact ⟨entries, by
        rw [find?_put_apart _ hprefix (h.not_prefix_of_find? hw hne), hw], fun _ => id⟩
  · have hne : w ≠ way := by
      rintro rfl
      rw [find?_put_self] at hw
      cases hw
    by_cases hprefix : w <+: way
    · exact h.directory_of_prefix hprefix hne
    by_cases hbehind : way <+: w
    · obtain ⟨rest, rfl⟩ := hbehind
      cases rest with
      | nil => exact absurd (List.append_nil way) hne
      | cons name rest =>
        rw [find?_append, find?_put_self] at hw
        cases hw
    · rw [find?_put_apart _ hprefix hbehind] at hw
      exact ⟨entries', hw⟩

/-! ## Written files -/

/-- A tree with a file that was made and then filled. -/
def written (way : List String) (bytes : Bytes) (t : FileNode) : FileNode :=
  put (file bytes) way (put (file []) way t)

theorem find?_written_self (way : List String) (bytes : Bytes) (t : FileNode) :
    (t.written way bytes).find? way = some (file bytes) :=
  find?_put_self _ _ _

namespace Settable

variable (h : t.Settable way) (bytes : Bytes)
include h

theorem grows_written : t.Grows (t.written way bytes) :=
  (h.grows []).trans ((h.of_grows (h.grows [])).grows bytes)

theorem find?_written (hw : t.Settable w) (hne : w ≠ way) :
    (t.written way bytes).find? w = t.find? w := by
  have hgrows := h.grows []
  rw [written, (h.of_grows hgrows).find?_put_settable _ (hw.of_grows hgrows) hne,
    h.find?_put_settable _ hw hne]

end Settable
end FileNode

namespace Memory

open FileNode

variable {s s' : Memory} {path : String} {way : List String}

theorem bind_eq_ok_iff {ε α β : Type} {x : Except ε α} {f : α → Except ε β} {b : β} :
    x >>= f = .ok b ↔ ∃ a, x = .ok a ∧ f a = .ok b := by
  cases x with
  | error e => exact iff_of_false nofun nofun
  | ok a => simp [bind, Except.bind]

/-! ## Walks -/

theorem lookUp_eq_ok_iff {entries : List (String × FileNode)} {name : String}
    {found : Option FileNode} :
    lookUp entries name = .ok found ↔
      name.utf8ByteSize ≤ nameLimit ∧ entries.lookup name = found := by
  unfold lookUp
  split
  · next hsize => exact iff_of_false nofun fun h => absurd h.1 (not_le.mpr hsize)
  · next hsize => rw [Except.ok.injEq, and_iff_right (not_lt.mp hsize)]

theorem walkPart_of_grows {t t' : FileNode} (h : t.Grows t') {way way' : List String}
    {part : String} (hw : walkPart t way part = .ok way') : walkPart t' way part = .ok way' := by
  unfold walkPart at hw ⊢
  cases hfind : t.find? way with
  | none =>
    rw [hfind] at hw
    cases hw
  | some node =>
    cases node with
    | file bytes =>
      rw [hfind] at hw
      cases hw
    | directory entries =>
      obtain ⟨entries', hfind', hnames⟩ := h.kept way entries hfind
      rw [hfind] at hw
      rw [hfind']
      dsimp only at hw ⊢
      split
      · rwa [if_pos ‹_›] at hw
      rw [if_neg ‹_›] at hw
      split
      · rwa [if_pos ‹_›] at hw
      rw [if_neg ‹_›] at hw
      -- a name that was found is found among more names
      obtain ⟨found, hlook, hstep⟩ := bind_eq_ok_iff.mp hw
      obtain ⟨hsize, rfl⟩ := lookUp_eq_ok_iff.mp hlook
      refine bind_eq_ok_iff.mpr ⟨_, lookUp_eq_ok_iff.mpr ⟨hsize, rfl⟩, ?_⟩
      split at hstep
      · next hsome => exact (if_pos (hnames part hsome)).trans hstep
      · cases hstep

theorem walk_of_grows {t t' : FileNode} (h : t.Grows t') {names way way' : List String}
    (hw : names.foldlM (walkPart t) way = .ok way') :
    names.foldlM (walkPart t') way = .ok way' := by
  induction names generalizing way with
  | nil => exact hw
  | cons name rest ih =>
    rw [List.foldlM_cons] at hw ⊢
    obtain ⟨next, hname, hrest⟩ := bind_eq_ok_iff.mp hw
    exact bind_eq_ok_iff.mpr ⟨next, walkPart_of_grows h hname, ih hrest⟩

theorem resolve_eq_ok_iff {node : FileNode} :
    s.resolve path = .ok (way, node) ↔
      checkPath path = .ok () ∧ (parts path).foldlM (walkPart s.root) [] = .ok way ∧
        s.root.find? way = some node := by
  unfold resolve
  rw [bind_eq_ok_iff]
  constructor
  · rintro ⟨⟨⟩, hcheck, h⟩
    obtain ⟨way', hwalk, h⟩ := bind_eq_ok_iff.mp h
    cases hfind : s.root.find? way' with
    | none =>
      rw [hfind] at h
      cases h
    | some found =>
      rw [hfind] at h
      cases h
      exact ⟨hcheck, hwalk, hfind⟩
  · rintro ⟨hcheck, hwalk, hfind⟩
    refine ⟨(), hcheck, bind_eq_ok_iff.mpr ⟨way, hwalk, ?_⟩⟩
    rw [hfind]
    rfl

/-- A path leads the same way in a tree that has grown. -/
theorem resolve_of_grows (h : s.root.Grows s'.root) {node node' : FileNode}
    (hpath : s.resolve path = .ok (way, node)) (hnode : s'.root.find? way = some node') :
    s'.resolve path = .ok (way, node') := by
  obtain ⟨hcheck, hwalk, -⟩ := resolve_eq_ok_iff.mp hpath
  exact resolve_eq_ok_iff.mpr ⟨hcheck, walk_of_grows h hwalk, hnode⟩

theorem contents_eq_ok_iff {bytes : Bytes} :
    s.contents path = .ok bytes ↔ ∃ way, s.resolve path = .ok (way, .file bytes) := by
  unfold contents
  rw [bind_eq_ok_iff]
  constructor
  · rintro ⟨⟨way, node⟩, hpath, h⟩
    cases node with
    | file found =>
      cases h
      exact ⟨way, hpath⟩
    | directory entries => cases h
  · rintro ⟨way, hpath⟩
    exact ⟨(way, .file bytes), hpath, rfl⟩

theorem contents_of_directory {entries : List (String × FileNode)}
    (h : s.resolve path = .ok (way, .directory entries)) :
    s.contents path = .error .isADirectory := by
  rw [contents, h]
  rfl

theorem names_of_directory {entries : List (String × FileNode)}
    (h : s.resolve path = .ok (way, .directory entries)) :
    s.names path = .ok (entries.map Prod.fst) := by
  rw [names, h]
  rfl

/-! ## New files -/

/-- A path that is to become a file leads into a directory, by a name that is not
one of a directory there. -/
theorem resolveNew_eq_ok_iff :
    s.resolveNew path = .ok way ↔
      checkPath path = .ok () ∧ ∃ front name entries,
        way = front ++ [name] ∧
        (withoutSlashes (parts path)).dropLast.foldlM (walkPart s.root) [] = .ok front ∧
        s.root.find? front = some (directory entries) ∧
        (withoutSlashes (parts path)).getLast? = some name ∧
        ¬ (path.endsWith "/" ∨ name = "." ∨ name = "..") ∧ name.utf8ByteSize ≤ nameLimit ∧
        ∀ inner, entries.lookup name ≠ some (directory inner) := by
  unfold resolveNew
  rw [bind_eq_ok_iff]
  constructor
  · rintro ⟨⟨⟩, hcheck, h⟩
    refine ⟨hcheck, ?_⟩
    obtain ⟨front, hwalk, h⟩ := bind_eq_ok_iff.mp h
    cases hfind : s.root.find? front with
    | none =>
      rw [hfind] at h
      cases h
    | some found =>
      rw [hfind] at h
      cases found with
      | file bytes => cases h
      | directory entries =>
        cases hlast : (withoutSlashes (parts path)).getLast? with
        | none =>
          rw [hlast] at h
          cases h
        | some name =>
          rw [hlast] at h
          dsimp only at h
          split at h
          · cases h
          · next hdots =>
            obtain ⟨entry, hlook, h⟩ := bind_eq_ok_iff.mp h
            obtain ⟨hsize, rfl⟩ := lookUp_eq_ok_iff.mp hlook
            split at h
            · cases h
            · next hleaf =>
              cases h
              exact ⟨front, name, entries, rfl, hwalk, hfind, rfl, hdots, hsize, hleaf⟩
  · rintro ⟨hcheck, front, name, entries, rfl, hwalk, hfind, hlast, hdots, hsize, hleaf⟩
    refine ⟨(), hcheck, bind_eq_ok_iff.mpr ⟨front, hwalk, ?_⟩⟩
    rw [hfind, hlast]
    dsimp only
    rw [if_neg hdots]
    refine bind_eq_ok_iff.mpr ⟨_, lookUp_eq_ok_iff.mpr ⟨hsize, rfl⟩, ?_⟩
    split
    · next inner hinner => exact absurd hinner (hleaf inner)
    · rfl

theorem settable_of_resolveNew (h : s.resolveNew path = .ok way) : s.root.Settable way := by
  obtain ⟨-, front, name, entries, rfl, -, hfind, -, -, -, hleaf⟩ := resolveNew_eq_ok_iff.mp h
  refine ⟨⟨front, name, entries, rfl, hfind⟩, fun inner hinner => ?_⟩
  rw [find?_append, hfind, Option.bind_some] at hinner
  obtain ⟨node, hnode, hlast⟩ := Option.bind_eq_some_iff.mp hinner
  cases hlast
  exact hleaf inner hnode

/-- A path that can become a file still can in a tree that has grown. -/
theorem resolveNew_of_grows (h : s.root.Grows s'.root) (hpath : s.resolveNew path = .ok way) :
    s'.resolveNew path = .ok way := by
  have hsettable := (settable_of_resolveNew hpath).of_grows h
  obtain ⟨hcheck, front, name, entries, rfl, hwalk, hfind, hlast, hdots, hsize, -⟩ :=
    resolveNew_eq_ok_iff.mp hpath
  obtain ⟨entries', hfind', -⟩ := h.kept front entries hfind
  refine resolveNew_eq_ok_iff.mpr ⟨hcheck, front, name, entries', rfl, walk_of_grows h hwalk,
    hfind', hlast, hdots, hsize, fun inner hinner => hsettable.leaf inner ?_⟩
  rw [find?_append, hfind', Option.bind_some, find?, entry?, hinner]
  rfl

end Memory
end PrintFormat
