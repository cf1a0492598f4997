import PrintFormat.Proofs.Host.Files

/-!
Systems whose files are those of a tree. On files such a system does what one that
is held in memory does, and all else leaves the tree as it is (`OnTree`). Its
clock, its environment and its outputs are not spoken of. What a command leads to
is put together from what its operations lead to (`Leads.bind`).
-/
namespace PrintFormat

/-- The system in memory that has nothing but a tree. -/
def FileNode.mounted (t : FileNode) : Memory := { root := t }

namespace Host

variable {σ α β : Type} {tree : σ → FileNode} {t : FileNode}

/-! ## Operations on a tree -/

/-- Started on a tree, an operation ends with a result and on a tree of which
something holds. -/
def Leads (tree : σ → FileNode) (t : FileNode) (x : StateM σ α) (post : α → FileNode → Prop) :
    Prop :=
  ∀ s, tree s = t → post (x.run s).1 (tree (x.run s).2)

/-- Started on a tree, an operation leaves it and ends with a result of which
something holds. -/
abbrev Keeps (tree : σ → FileNode) (t : FileNode) (x : StateM σ α) (post : α → Prop) : Prop :=
  Leads tree t x fun a t' => t' = t ∧ post a

section

variable {x : StateM σ α} {f : α → StateM σ β} {post : α → FileNode → Prop}
  {post' : β → FileNode → Prop}

theorem Leads.pure {a : α} (h : post a t) : Leads tree t (Pure.pure a) post := by
  intro s hs
  subst hs
  exact h

theorem Leads.bind (hx : Leads tree t x post)
    (hf : ∀ a t', post a t' → Leads tree t' (f a) post') : Leads tree t (x >>= f) post' :=
  fun s hs => hf _ _ (hx s hs) _ rfl

theorem Leads.mono {post' : α → FileNode → Prop} (hx : Leads tree t x post)
    (h : ∀ a t', post a t' → post' a t') : Leads tree t x post' :=
  fun s hs => h _ _ (hx s hs)

theorem Keeps.bind {kept : α → Prop} (hx : Keeps tree t x kept)
    (hf : ∀ a, kept a → Leads tree t (f a) post') : Leads tree t (x >>= f) post' :=
  Leads.bind hx fun a _ ⟨heq, ha⟩ => heq ▸ hf a ha

theorem Keeps.pure {a : α} {kept : α → Prop} (h : kept a) : Keeps tree t (Pure.pure a) kept :=
  Leads.pure ⟨rfl, h⟩

theorem Keeps.mono {kept kept' : α → Prop} (hx : Keeps tree t x kept) (h : ∀ a, kept a → kept' a) :
    Keeps tree t x kept' :=
  Leads.mono hx fun a _ ⟨heq, ha⟩ => ⟨heq, h a ha⟩

end

/-! ## Systems on a tree -/

/-- A system whose files are those of a tree. -/
structure OnTree [Host (StateM σ)] (tree : σ → FileNode) : Prop where
  readFile (path : String) (t : FileNode) :
    Keeps tree t (Host.readFile path) (· = t.mounted.contents path)
  isFile (path : String) (t : FileNode) :
    Keeps tree t (Host.isFile path) (· = (t.mounted.contents path).isOk)
  listDirectory (path : String) (t : FileNode) :
    Keeps tree t (Host.listDirectory path) (· = t.mounted.names path)
  createFile (path : String) (t : FileNode) :
    Leads tree t (Host.createFile path) fun r t' =>
      (r, t') = ((Memory.edit path fun _ => []).run t.mounted).map id Memory.root
  appendFile (path : String) (bytes : Bytes) (t : FileNode) :
    Leads tree t (Host.appendFile path bytes) fun r t' =>
      (r, t') = ((Memory.edit path (· ++ bytes)).run t.mounted).map id Memory.root
  environment (t : FileNode) : Keeps tree t Host.environment fun _ => True
  now (t : FileNode) : Keeps tree t Host.now fun _ => True
  nanoseconds (t : FileNode) : Keeps tree t Host.nanoseconds fun _ => True
  runName (t : FileNode) : Keeps tree t Host.runName fun _ => True
  output (bytes : Bytes) (t : FileNode) : Keeps tree t (Host.output bytes) fun _ => True
  notify (notice : Notice) (t : FileNode) : Keeps tree t (Host.notify notice) fun _ => True

end Host

namespace Memory

variable {path : String} {way : List String}

/-- What a file holds, if there is one. -/
def bytesAt (way : List String) (t : FileNode) : Bytes :=
  match t.find? way with
  | some (.file bytes) => bytes
  | _ => []

theorem edit_eq {s : Memory} (change : Bytes → Bytes) (h : s.resolveNew path = .ok way) :
    (edit path change).run s =
      (.ok (), { s with root := .put (.file (change (bytesAt way s.root))) way s.root }) := by
  unfold edit StateT.run
  dsimp only
  rw [h]
  rfl

theorem edit_mounted (change : Bytes → Bytes) (s : Memory) :
    ((edit path change).run s).map id root = ((edit path change).run s.root.mounted).map id root := by
  have hway : s.root.mounted.resolveNew path = s.resolveNew path := rfl
  unfold edit StateT.run
  dsimp only
  rw [hway]
  cases s.resolveNew path <;> rfl

/-- A system in memory is one on its tree. -/
theorem onTree : Host.OnTree Memory.root where
  readFile path t := by
    rintro s rfl
    exact ⟨rfl, rfl⟩
  isFile path t := by
    rintro s rfl
    exact ⟨rfl, rfl⟩
  listDirectory path t := by
    rintro s rfl
    exact ⟨rfl, rfl⟩
  createFile path t := by
    rintro s rfl
    exact edit_mounted (fun _ => []) s
  appendFile path bytes t := by
    rintro s rfl
    exact edit_mounted (· ++ bytes) s
  environment t := by
    rintro s rfl
    exact ⟨rfl, trivial⟩
  now t := by
    rintro s rfl
    exact ⟨rfl, trivial⟩
  nanoseconds t := by
    rintro s rfl
    exact ⟨rfl, trivial⟩
  runName t := by
    rintro s rfl
    exact ⟨rfl, trivial⟩
  output bytes t := by
    rintro s rfl
    exact ⟨rfl, trivial⟩
  notify notice t := by
    rintro s rfl
    exact ⟨rfl, trivial⟩

end Memory

/-! ## Files on a tree -/

namespace Host.OnTree

variable {σ : Type} [Host (StateM σ)] {tree : σ → FileNode} (h : OnTree tree)
  {t : FileNode} {path : String} {way : List String}
include h

theorem createFile_at (hway : t.mounted.resolveNew path = .ok way) :
    Leads tree t (Host.createFile path) fun r t' => r = .ok () ∧ t' = .put (.file []) way t := by
  refine (h.createFile path t).mono fun r t' heq => ?_
  rw [Memory.edit_eq _ hway] at heq
  exact Prod.mk.inj heq

theorem appendFile_at (bytes : Bytes) (hway : t.mounted.resolveNew path = .ok way) :
    Leads tree t (Host.appendFile path bytes) fun r t' =>
      r = .ok () ∧ t' = .put (.file (Memory.bytesAt way t ++ bytes)) way t := by
  refine (h.appendFile path bytes t).mono fun r t' heq => ?_
  rw [Memory.edit_eq _ hway] at heq
  exact Prod.mk.inj heq

/-- What is told does not matter. -/
theorem notify_if {α : Type} {post : α → FileNode → Prop} {x : StateM σ α} {notice : Notice}
    {told : Prop} [Decidable told] (hx : Leads tree t x post) :
    Leads tree t (if told then Host.notify notice >>= fun _ => x else x) post := by
  split
  · exact (h.notify notice t).bind fun _ _ => hx
  · exact hx

/-- A file is made and filled. -/
theorem writeFile_at (bytes : Bytes) (hway : t.mounted.resolveNew path = .ok way) :
    Leads tree t (Host.writeFile path bytes) fun r t' =>
      r = .ok () ∧ t' = t.written way bytes := by
  refine (h.createFile_at hway).bind fun r t' h' => ?_
  obtain ⟨rfl, rfl⟩ := h'
  have hgrows := (Memory.settable_of_resolveNew hway).grows []
  refine (h.appendFile_at bytes (Memory.resolveNew_of_grows hgrows hway)).mono fun r t' heq => ?_
  rwa [Memory.bytesAt, FileNode.find?_put_self] at heq

end Host.OnTree
end PrintFormat
