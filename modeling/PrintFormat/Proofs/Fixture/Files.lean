import PrintFormat.Fixture.Files
import PrintFormat.Proofs.Fixture.Document
import PrintFormat.Proofs.Host.Tree
import PrintFormat.Proofs.Text.Parts
import PrintFormat.Proofs.Text.Utf8

/-!
The fixture files of a path. In a tree they are what the path leads to, or the
files with the extension `json` in the directory that it leads to (`Found`); these
are the paths that are looked up, in this order (`Found.paths`). A file that is
made outside changes nothing about them (`Found.put`).
-/
namespace PrintFormat

/-! ## Paths into directories -/

namespace Memory

variable {s : Memory} {way : List String}

theorem parts_between (front back : String) :
    parts (front ++ "/" ++ back) = parts front ++ parts back := by
  have hchars : (front ++ "/" ++ back).toList = front.toList ++ '/' :: back.toList := by
    rw [String.toList_append, String.toList_append, List.append_assoc]
    rfl
  rw [parts, hchars, Text.split_between (by rfl), List.map_append]
  rfl

theorem parts_of_name {name : String} (h : '/' ∉ name.toList) : parts name = [name] := by
  have hnone : ∀ c ∈ name.toList, decide (c = '/') = false := by
    intro c hc
    exact decide_eq_false fun heq => h (heq ▸ hc)
  rw [parts, Text.split_of_none hnone, List.map_singleton, String.ofList_toList]

theorem parts_empty : parts "" = [""] := rfl

/-- What can be walked from at all is a directory. -/
theorem exists_of_walkPart {t : FileNode} {part : String} {way' : List String}
    (h : walkPart t way part = .ok way') : ∃ entries, t.find? way = some (.directory entries) := by
  unfold walkPart at h
  split at h
  · cases h
  · cases h
  · next entries hfind => exact ⟨entries, hfind⟩

theorem walkPart_empty {t : FileNode} {way' : List String} (h : walkPart t way "" = .ok way') :
    way' = way := by
  obtain ⟨entries, hfind⟩ := exists_of_walkPart h
  rw [walkPart, hfind] at h
  exact (Except.ok.inj h).symm

/-- Where a directory is, a name leads one step further. -/
theorem walkPart_eq_ok {t : FileNode} {name : String} {way' : List String} (hempty : name ≠ "")
    (hdot : name ≠ ".") (hdots : name ≠ "..") (h : walkPart t way name = .ok way') :
    way' = way ++ [name] := by
  obtain ⟨entries, hfind⟩ := exists_of_walkPart h
  rw [walkPart, hfind] at h
  dsimp only at h
  rw [if_neg (not_or.mpr ⟨hempty, hdot⟩), if_neg hdots] at h
  obtain ⟨found, -, hstep⟩ := bind_eq_ok_iff.mp h
  split at hstep
  · exact (Except.ok.inj hstep).symm
  · cases hstep

end Memory

namespace Fixture

open Memory

variable {t : FileNode} {fixture : String} {way : List String}

theorem endsWith_iff (text back : String) :
    text.endsWith back = true ↔ ∃ front, text = front ++ back := by
  rw [← String.endsWith_toSlice, String.Slice.endsWith_string_iff, String.copy_toSlice]
  constructor
  · rintro ⟨front, hfront⟩
    exact ⟨String.ofList front, String.toList_inj.mp (by
      rw [String.toList_append, String.toList_ofList, hfront])⟩
  · rintro ⟨front, rfl⟩
    exact ⟨front.toList, String.toList_append.symm⟩

/-- The names that lead to a directory, and then a name in it, are those of the
path that is put together from them. -/
theorem exists_parts_pathOf {entries : List (String × FileNode)}
    (h : t.mounted.resolve fixture = .ok (way, .directory entries)) {name : String}
    (hname : '/' ∉ name.toList) :
    ∃ front, parts (pathOf fixture name) = front ++ [name] ∧
      front.foldlM (walkPart t) [] = .ok way := by
  obtain ⟨hcheck, hwalk, hfind⟩ := resolve_eq_ok_iff.mp h
  have hne : fixture ≠ "" := by
    rintro rfl
    cases hcheck
  unfold pathOf
  by_cases hslash : fixture.endsWith "/" = true
  · obtain ⟨front, rfl⟩ := (endsWith_iff fixture "/").mp hslash
    have hfront : parts (front ++ "/") = parts front ++ [""] := by
      rw [← String.append_empty (s := front ++ "/"), parts_between, parts_empty]
    refine ⟨parts front, ?_, ?_⟩
    · rw [if_pos (.inr hslash), parts_between, parts_of_name hname]
    · rw [hfront, List.foldlM_append] at hwalk
      obtain ⟨way', hway', hlast⟩ := bind_eq_ok_iff.mp hwalk
      rw [List.foldlM_cons] at hlast
      obtain ⟨last, hlast, hend⟩ := bind_eq_ok_iff.mp hlast
      cases hend
      rwa [walkPart_empty hlast]
  · refine ⟨parts fixture, ?_, hwalk⟩
    rw [if_neg (not_or.mpr ⟨hne, hslash⟩), parts_between, parts_of_name hname]

/-- The path of a name in a directory leads one step further than the directory. -/
theorem way_pathOf {entries : List (String × FileNode)}
    (h : t.mounted.resolve fixture = .ok (way, .directory entries)) {name : String}
    (hname : '/' ∉ name.toList) (hext : extension? name = some "json") {way' : List String}
    {node : FileNode} (hpath : t.mounted.resolve (pathOf fixture name) = .ok (way', node)) :
    way' = way ++ [name] := by
  obtain ⟨front, hparts, hfront⟩ := exists_parts_pathOf h hname
  obtain ⟨-, hwalk, -⟩ := resolve_eq_ok_iff.mp hpath
  rw [hparts, List.foldlM_append] at hwalk
  obtain ⟨middle, hmiddle, hlast⟩ := bind_eq_ok_iff.mp hwalk
  obtain rfl : middle = way := Except.ok.inj (hmiddle.symm.trans hfront)
  rw [List.foldlM_cons] at hlast
  obtain ⟨last, hlast, hend⟩ := bind_eq_ok_iff.mp hlast
  cases hend
  have hne (special : String) (hspecial : extension? special = none) : name ≠ special := by
    rintro rfl
    rw [hspecial] at hext
    cases hext
  exact walkPart_eq_ok (hne "" (by decide)) (hne "." (by decide)) (hne ".." (by decide)) hlast

/-! ## The files of a path -/

/-- The fixture files that a path stands for in a tree, in order, with what is in
them: the file that it leads to, or the ones with the extension `json` in the
directory that it leads to, sorted by name. -/
inductive Found (t : FileNode) (fixture : String) : List (String × Bytes) → Prop
  | file {bytes : Bytes} (contents : t.mounted.contents fixture = .ok bytes) :
      Found t fixture [(fixture, bytes)]
  | directory {way : List String} {entries : List (String × FileNode)}
      {files : List (String × Bytes)}
      (resolved : t.mounted.resolve fixture = .ok (way, .directory entries))
      (names : ∀ name ∈ entries.map Prod.fst, '/' ∉ name.toList)
      (perm : (files.map Prod.fst).Perm
        ((entries.map Prod.fst).filter fun name => extension? name = some "json"))
      (sorted : (files.map Prod.fst).Pairwise (· ≤ ·))
      (contents : ∀ f ∈ files, t.mounted.contents (pathOf fixture f.1) = .ok f.2) :
      Found t fixture (files.map fun f => (pathOf fixture f.1, f.2))

/-- A place for a new file that a path leads to, outside of what the path of
fixtures leads to. -/
structure Outside (t : FileNode) (fixture path : String) (place : List String) : Prop where
  resolved : t.mounted.resolveNew path = .ok place
  apart : ∀ way node, t.mounted.resolve fixture = .ok (way, node) → ¬ way <+: place

theorem Outside.settable {path : String} {place : List String}
    (h : Outside t fixture path place) : t.Settable place :=
  settable_of_resolveNew h.resolved

/-- The text of a fixture without floats is a fixture file. -/
theorem ofBytes?_text {f : Fixture} (h : f.NoFloats) : ofBytes? (Text.encode f.text) = some f := by
  rw [ofBytes?, Text.decode?_eq_some.mpr rfl, Option.bind_some, read?_text h]

/-- Names in order are the sorted names. -/
theorem fixtureNames_eq {names sorted : List String}
    (hperm : sorted.Perm (names.filter fun name => extension? name = some "json"))
    (hsorted : sorted.Pairwise (· ≤ ·)) : fixtureNames names = sorted := by
  have hmerged : (fixtureNames names).Pairwise (· ≤ ·) := by
    refine (List.pairwise_mergeSort ?_ ?_ _).imp of_decide_eq_true
    · intro a b c hab hbc
      exact decide_eq_true (le_trans (of_decide_eq_true hab) (of_decide_eq_true hbc))
    · intro a b
      rw [Bool.or_eq_true, decide_eq_true_eq, decide_eq_true_eq]
      exact le_total a b
  exact ((List.mergeSort_perm _ _).trans hperm.symm).eq_of_pairwise
    (fun a b _ _ => le_antisymm) hmerged hsorted

namespace Found

variable {files : List (String × Bytes)} (h : Found t fixture files)
include h

/-- Each of the files can be read. -/
theorem contents_eq : ∀ f ∈ files, t.mounted.contents f.1 = .ok f.2 := by
  cases h with
  | file contents =>
    intro f hf
    obtain rfl := List.mem_singleton.mp hf
    exact contents
  | directory resolved names perm sorted contents =>
    intro f hf
    obtain ⟨g, hg, rfl⟩ := List.mem_map.mp hf
    exact contents g hg

theorem paths {σ : Type} [Host (StateM σ)] {tree : σ → FileNode} (hhost : Host.OnTree tree) :
    Host.Keeps tree t (Fixture.paths fixture) (· = .ok (files.map Prod.fst)) := by
  refine (hhost.isFile fixture t).bind fun found hfound => ?_
  subst hfound
  cases h with
  | file contents =>
    rw [contents]
    exact Host.Keeps.pure rfl
  | directory resolved names perm sorted contents =>
    rw [contents_of_directory resolved]
    refine (hhost.listDirectory fixture t).bind fun r hr => ?_
    subst hr
    rw [names_of_directory resolved]
    refine Host.Keeps.pure ?_
    rw [fixtureNames_eq perm sorted, List.map_map, List.map_map]
    rfl

/-- None of the files is outside. -/
theorem resolve_eq {path : String} {place : List String} (hout : Outside t fixture path place) :
    ∀ f ∈ files, ∃ way, t.mounted.resolve f.1 = .ok (way, .file f.2) ∧ way ≠ place := by
  intro f hf
  obtain ⟨way, hway⟩ := contents_eq_ok_iff.mp (h.contents_eq f hf)
  refine ⟨way, hway, ?_⟩
  rintro rfl
  cases h with
  | file contents =>
    obtain rfl := List.mem_singleton.mp hf
    exact hout.apart way _ hway List.prefix_rfl
  | directory resolved names perm sorted contents =>
    obtain ⟨g, hg, rfl⟩ := List.mem_map.mp hf
    have hmem := perm.subset (List.mem_map_of_mem hg)
    rw [List.mem_filter, decide_eq_true_eq] at hmem
    refine hout.apart _ _ resolved ?_
    rw [way_pathOf resolved (names _ hmem.1) hmem.2 hway]
    exact List.prefix_append _ _

theorem put {path : String} {place : List String} (hout : Outside t fixture path place)
    (bytes : Bytes) : Found (.put (.file bytes) place t) fixture files := by
  have hsettable := hout.settable
  have hgrows := hsettable.grows bytes
  have hcontents : ∀ f ∈ files,
      (FileNode.put (.file bytes) place t).mounted.contents f.1 = .ok f.2 := by
    intro f hf
    obtain ⟨way, hway, hne⟩ := h.resolve_eq hout f hf
    have hfind := (resolve_eq_ok_iff.mp hway).2.2
    exact contents_eq_ok_iff.mpr
      ⟨way, resolve_of_grows hgrows hway (hsettable.find?_put_file _ hfind hne)⟩
  cases h with
  | file contents => exact .file (hcontents _ List.mem_cons_self)
  | directory resolved names perm sorted contents =>
    have hfind := (resolve_eq_ok_iff.mp resolved).2.2
    have hapart := hout.apart _ _ resolved
    have hne : _ ≠ place := fun heq => hapart (heq ▸ List.prefix_rfl)
    have hstays := FileNode.find?_put_apart (t := t) (.file bytes) hapart
      (hsettable.not_prefix_of_find? hfind hne)
    exact .directory (resolve_of_grows hgrows resolved (hstays.trans hfind)) names perm sorted
      fun f hf => hcontents _ (List.mem_map_of_mem hf)

end Found

end Fixture
end PrintFormat
