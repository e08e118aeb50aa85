import RecordRegistry.Disk.Tree

/-!
# Files on a disk

A view of a disk says which files there are, at which places and with which bytes. It is faithful if
the disk changes a file by writing it and in no other way. Directories are then made without any
change of a file, and a tree has a faithful view.
-/

namespace RecordRegistry

/-- What can be seen of a disk: the place that a path leads to, and the bytes of the file at a
place. Several paths may lead to one place. -/
structure DiskView (σ : Type) where
  Place : Type
  place? : σ → Path → Option Place
  bytes? : σ → Place → Option (List UInt8)

namespace DiskView

variable {σ : Type} (view : DiskView σ)

/-- No file has changed. -/
def Same (s s' : σ) : Prop := ∀ place, view.bytes? s' place = view.bytes? s place

/-- The file at a path has the given bytes, and no other file has changed. -/
def Put (path : Path) (bytes : List UInt8) (s s' : σ) : Prop :=
  ∃ place, view.place? s' path = some place ∧ view.bytes? s' place = some bytes ∧
    ∀ other, other ≠ place → view.bytes? s' other = view.bytes? s other

/-- A write that succeeds changes the file at its path alone, and the other operations change no
file. What a failed write leaves behind is not said. -/
structure Faithful (disk : Disk (StateM σ)) : Prop where
  read (path : Path) (s : σ) : view.Same s (disk.read path s).2
  makeDirectory (path : Path) (s : σ) : view.Same s (disk.makeDirectory path s).2
  isDirectory (path : Path) (s : σ) : view.Same s (disk.isDirectory path s).2
  write (path : Path) (bytes : List UInt8) (s : σ) :
    (disk.write path bytes s).1 = .ok () → view.Put path bytes s (disk.write path bytes s).2

variable {view} {s s' s'' : σ}

theorem Same.trans (h : view.Same s s') (h' : view.Same s' s'') : view.Same s s'' :=
  fun place => (h' place).trans (h place)

theorem Same.put {path : Path} {bytes : List UInt8} (h : view.Same s s')
    (h' : view.Put path bytes s' s'') : view.Put path bytes s s'' := by
  obtain ⟨place, hplace, hbytes, hother⟩ := h'
  exact ⟨place, hplace, hbytes, fun other hne => (hother other hne).trans (h other)⟩

namespace Faithful

variable {disk : Disk (StateM σ)}

theorem ensureDirectory (h : view.Faithful disk) (path : Path) (s : σ) :
    view.Same s (disk.ensureDirectory path s).2 := by
  have hmade := h.makeDirectory path s
  rw [Disk.ensureDirectory]
  simp only [bind, StateT.bind]
  rcases hdisk : disk.makeDirectory path s with ⟨e | ⟨⟩, s'⟩
  · rw [hdisk] at hmade
    exact hmade.trans (h.isDirectory path s')
  · rw [hdisk] at hmade
    exact hmade

theorem ensureAbove (h : view.Faithful disk) (start : Path.Start) (names : List Text) (s : σ) :
    view.Same s (disk.ensureAbove start names s).2 := by
  induction names generalizing s with
  | nil => exact h.ensureDirectory ⟨start, []⟩ s
  | cons name above ih =>
      have hmade := h.ensureDirectory ⟨start, (name :: above).reverse⟩ s
      rw [Disk.ensureAbove]
      simp only [bind, StateT.bind]
      rcases hdisk : disk.ensureDirectory ⟨start, (name :: above).reverse⟩ s with ⟨e | ⟨⟩, s₁⟩
      · rw [hdisk] at hmade
        by_cases hfault : e.fault = .notFound
        · -- the directories above come first, then the directory is tried again
          have habove := hmade.trans (ih s₁)
          simp only [hfault, ↓reduceIte, StateT.bind]
          rcases hdisk' : disk.ensureAbove start above s₁ with ⟨e' | ⟨⟩, s₂⟩
          · rw [hdisk'] at habove
            exact habove
          · rw [hdisk'] at habove
            exact habove.trans (h.ensureDirectory _ s₂)
        · simp only [hfault, ↓reduceIte]
          exact hmade
      · rw [hdisk] at hmade
        exact hmade

/-- Making a directory and those above it changes no file. -/
theorem ensureDirectories (h : view.Faithful disk) (path : Path) (s : σ) :
    view.Same s (disk.ensureDirectories path s).2 :=
  h.ensureAbove path.start path.names.reverse s

end Faithful

end DiskView

/-- The bytes of a file. -/
def Node.bytes? : Node → Option (List UInt8)
  | file bytes => some bytes
  | directory => none

namespace Tree

/-- The bytes of the file at a place. -/
def bytes? (tree : Tree) (place : List Text) : Option (List UInt8) :=
  (tree.node? place).bind Node.bytes?

/-- The files of a tree under the names that lead to them from the root. -/
def view : DiskView Tree where
  Place := List Text
  place? tree path := (tree.locate path).toOption
  bytes? := bytes?

theorem lookup_put (place other : List Text) (node : Node) (nodes : List (List Text × Node)) :
    (put place node nodes).lookup other =
      if other = place then some node else nodes.lookup other := by
  induction nodes with
  | nil =>
      by_cases h : other = place
      · simp [put, h]
      · simp [put, List.lookup_cons, beq_false_of_ne h, h]
  | cons entry rest ih =>
      obtain ⟨first, old⟩ := entry
      by_cases hfirst : first = place
      · subst hfirst
        by_cases h : other = first
        · simp [put, h]
        · simp [put, List.lookup_cons, beq_false_of_ne h, h]
      · by_cases h : other = first
        · simp [put, hfirst, h]
        · simp [put, List.lookup_cons, hfirst, beq_false_of_ne h, ih]

section Put

variable {tree : Tree} {place : List Text} {node : Node}

/-- A node that is put at a place below the root is found there, and all others stay. -/
theorem node?_put (hplace : place ≠ []) (other : List Text) :
    node? { tree with nodes := put place node tree.nodes } other =
      if other = place then some node else tree.node? other := by
  cases other with
  | nil => simp [node?, hplace.symm]
  | cons name names => simp only [node?, lookup_put]

theorem bytes?_put (hplace : place ≠ []) (other : List Text) :
    bytes? { tree with nodes := put place node tree.nodes } other =
      if other = place then node.bytes? else tree.bytes? other := by
  rw [bytes?, node?_put hplace]
  by_cases hother : other = place
  · simp [hother]
  · simp [hother, bytes?]

theorem ne_nil_of_node?_ne (h : tree.node? place ≠ some .directory) : place ≠ [] := by
  rintro rfl
  exact h rfl

/-- A way to a place that is no directory does not lead through it, and stays when a node is put
there. -/
theorem walk_put (h : tree.node? place ≠ some .directory) {names : List Text}
    {start : List Text} (hwalk : tree.walk start names = .ok place) :
    walk { tree with nodes := put place node tree.nodes } start names = .ok place := by
  induction names generalizing start with
  | nil => exact hwalk
  | cons name names ih =>
      simp only [walk] at hwalk ⊢
      by_cases hstart : start = place
      · subst hstart
        split at hwalk
        · cases hwalk
        · cases hwalk
        · next hnode => exact absurd hnode h
      · rw [node?_put (ne_nil_of_node?_ne h), if_neg hstart]
        split at hwalk
        · cases hwalk
        · cases hwalk
        · split at hwalk
          · cases hwalk
          · next hname =>
            simp only [hname, ↓reduceIte]
            split at hwalk
            · next hup => simpa only [hup, ↓reduceIte] using ih hwalk
            · next hup => simpa only [hup, ↓reduceIte] using ih hwalk

theorem locate_put {path : Path} (h : tree.node? place ≠ some .directory)
    (hlocate : tree.locate path = .ok place) :
    locate { tree with nodes := put place node tree.nodes } path = .ok place := by
  rw [locate] at hlocate ⊢
  split at hlocate
  · cases hlocate
  · split at hlocate
    · cases hlocate
    · next hnull =>
      split at hlocate
      · cases hlocate
      · next hlong =>
        rw [if_neg hnull, if_neg hlong]
        exact walk_put h hlocate

end Put

theorem same_makeDirectory (path : Path) (tree : Tree) :
    view.Same tree (disk.makeDirectory path tree).2 := by
  intro (other : List Text)
  change bytes? _ other = bytes? tree other
  simp only [disk, change, makeDirectory]
  cases hlocate : tree.locate path with
  | error fault => rfl
  | ok place =>
      cases hnode : tree.node? place with
      | some node => simp only [hnode]
      | none =>
          have hdirectory : tree.node? place ≠ some .directory := by simp [hnode]
          have hplace := ne_nil_of_node?_ne hdirectory
          simp only [hnode]
          rw [bytes?_put hplace]
          by_cases hother : other = place
          · simp [hother, Node.bytes?, bytes?, hnode]
          · rw [if_neg hother]

theorem put_write (path : Path) (bytes : List UInt8) (tree : Tree)
    (h : (disk.write path bytes tree).1 = .ok ()) :
    view.Put path bytes tree (disk.write path bytes tree).2 := by
  simp only [disk, change, write] at h ⊢
  cases hlocate : tree.locate path with
  | error fault =>
      rw [hlocate] at h
      cases h
  | ok place =>
      simp only [hlocate] at h ⊢
      by_cases hnode : tree.node? place = some .directory
      · simp only [hnode, ↓reduceIte] at h
        cases h
      · have hplace := ne_nil_of_node?_ne hnode
        have hbytes : ∀ other, _ = if other = place then (Node.file bytes).bytes? else
            tree.bytes? other := bytes?_put hplace
        simp only [hnode, ↓reduceIte]
        refine ⟨place, ?_, (hbytes place).trans (if_pos rfl), fun other hother => ?_⟩
        · simp only [view, locate_put hnode hlocate, Except.toOption]
        · exact (hbytes other).trans (if_neg hother)

/-- A tree changes its files by writing them and in no other way. -/
theorem faithful_view : view.Faithful disk where
  read _ _ := fun _ => rfl
  makeDirectory := same_makeDirectory
  isDirectory _ _ := fun _ => rfl
  write := put_write

end Tree

end RecordRegistry
