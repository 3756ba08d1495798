import IcuTransport.Library.Ascii
import IcuTransport.Library.Regions
import IcuTransport.Library.Search
import IcuTransport.Wire.Reading

/-!
# Private directories in a file tree

A capture is written to two files of a directory that `mkdtemp` makes. This module is the file
system as far as that is concerned: a tree of paths, and the calls that open a file which must not
exist, write to it, read a file, and remove files and directories. A call is permitted or not, for
reasons the program does not see, and what is permitted still depends on the tree.

Paths are spelled out: no directory on the way to a private directory is a link.

The private directories are a territory: a call on a path in a directory sees that directory only
and changes nothing else (`privateDirectories`).
-/

set_option autoImplicit false

namespace IcuTransport.Capture

open Ascii TextScan Wire Regions

/-! ## The tree -/

/-- What a path names. A special node is a link or a device; reading it gives what it stands for. -/
inductive Node where
  | directory
  | file (contents : Bytes)
  | special (reads : Option Bytes)
  deriving DecidableEq, Repr

/-- The nodes of a file system. The first entry of a path counts. -/
structure FileTree where
  entries : List (Bytes × Node)
  deriving DecidableEq, Repr

namespace FileTree

/-- The node of a path. -/
def lookup (tree : FileTree) (path : Bytes) : Option Node := tree.entries.lookup path

/-- The tree with another node at a path, or with none. -/
def assign (path : Bytes) (node : Option Node) (tree : FileTree) : FileTree :=
  match node with
  | some node => ⟨(path, node) :: tree.entries⟩
  | none => ⟨tree.entries.filter fun entry => entry.1 ≠ path⟩

/-- Nothing is below a directory. -/
def isEmpty (path : Bytes) (tree : FileTree) : Bool :=
  tree.entries.all fun entry => !(path ++ [slash]).isPrefixOf entry.1

theorem lookup_filter (entries : List (Bytes × Node)) (path other : Bytes) :
    (entries.filter fun entry => entry.1 ≠ path).lookup other =
      if other = path then none else entries.lookup other := by
  induction entries with
  | nil => simp
  | cons entry rest ih =>
      obtain ⟨name, node⟩ := entry
      by_cases removed : name = path
      · rw [List.filter_cons_of_neg (by simpa using removed), ih]
        split
        · rfl
        · rename_i different
          have absent : (other == name) = false := by
            rw [beq_eq_false_iff_ne, removed]
            exact different
          rw [List.lookup_cons, absent]
      · rw [List.filter_cons_of_pos (by simpa using removed), List.lookup_cons, List.lookup_cons,
          ih]
        by_cases here : other = name
        · simp only [here, beq_self_eq_true, if_neg removed]
        · simp only [beq_eq_false_iff_ne.mpr here]

/-- **Assigning changes one path.** -/
@[simp] theorem lookup_assign (path other : Bytes) (node : Option Node) (tree : FileTree) :
    (tree.assign path node).lookup other = if other = path then node else tree.lookup other := by
  cases node with
  | none => exact lookup_filter tree.entries path other
  | some node =>
      by_cases here : other = path
      · simp [assign, lookup, here]
      · rw [if_neg here]
        simp only [assign, lookup, List.lookup_cons, beq_eq_false_iff_ne.mpr here]

/-- **Nothing is below a directory** when no path below it has a node. -/
theorem isEmpty_iff {path : Bytes} {tree : FileTree} :
    tree.isEmpty path = true ↔ ∀ below, path ++ [slash] <+: below → tree.lookup below = none := by
  simp only [isEmpty, List.all_eq_true, Bool.not_eq_true', lookup, List.lookup_eq_none_iff,
    bne_iff_ne, ne_eq]
  constructor
  · intro empty below isBelow entry member same
    have outside := empty entry member
    rw [← same, ← Bool.not_eq_true, List.isPrefixOf_iff_prefix] at outside
    exact outside isBelow
  · intro empty entry member
    rw [← Bool.not_eq_true, List.isPrefixOf_iff_prefix]
    exact fun isBelow => empty entry.1 isBelow entry member rfl

end FileTree

/-! ## The calls -/

/-- The directory part of a path. -/
def directoryOf (path : Bytes) : Option Bytes := (splitLast slash path).map Prod.fst

/-- A call on a path. `openExclusive` opens with `O_CREAT`, `O_EXCL` and `O_NOFOLLOW` and makes a
stream of what it opened, which may fail after the file is there; `write` goes to the file that was
opened. -/
inductive FileCall where
  | openExclusive (path : Bytes) (permitted streams : Bool)
  | write (path : Bytes) (bytes : Bytes) (outcome : WriteOutcome)
  | read (path : Bytes) (permitted : Bool)
  | unlink (path : Bytes) (permitted : Bool)
  | rmdir (path : Bytes) (permitted : Bool)

/-- The path of a call. -/
def FileCall.path : FileCall → Bytes
  | .openExclusive path _ _ | .write path _ _ | .read path _ | .unlink path _ | .rmdir path _ =>
    path

/-- What a call needs around its path: a file is created in a directory that exists, and a directory
is removed when it is empty. -/
def FileCall.ready (tree : FileTree) : FileCall → Bool
  | .openExclusive path _ _ => (directoryOf path).bind tree.lookup = some .directory
  | .rmdir path _ => tree.isEmpty path
  | _ => true

/-- The answer of a call and the node of its path afterwards. No answer is a failure. -/
def FileCall.answer (here : Option Node) : FileCall → Option Bytes × Option Node
  | .openExclusive _ permitted streams =>
      if here = none ∧ permitted then (if streams then some [] else none, some (.file []))
      else (none, here)
  | .write _ bytes outcome =>
      match here with
      | some (.file contents) =>
          let (taken, complete) := writeOutput outcome bytes
          (if complete then some [] else none, some (.file (contents ++ taken)))
      | _ => (none, here)
  | .read _ permitted =>
      match here with
      | some (.file contents) => (if permitted then some contents else none, here)
      | some (.special reads) => (if permitted then reads else none, here)
      | _ => (none, here)
  | .unlink _ permitted =>
      if here ≠ none ∧ here ≠ some .directory ∧ permitted then (some [], none) else (none, here)
  | .rmdir _ permitted =>
      if here = some .directory ∧ permitted then (some [], none) else (none, here)

/-- Perform a call. -/
def perform (call : FileCall) (tree : FileTree) : Option Bytes × FileTree :=
  if call.ready tree then
    let (answer, node) := call.answer (tree.lookup call.path)
    (answer, tree.assign call.path node)
  else (none, tree)

/-- **A call changes the node of its path only.** -/
theorem lookup_perform (call : FileCall) (tree : FileTree) (path : Bytes) :
    (perform call tree).2.lookup path =
      if path = call.path ∧ call.ready tree then (call.answer (tree.lookup call.path)).2
      else tree.lookup path := by
  unfold perform
  by_cases ready : call.ready tree = true
  · rw [if_pos ready, FileTree.lookup_assign]
    simp only [ready, and_true]
  · rw [if_neg ready, if_neg fun both => ready both.2]

/-! ## Private directories -/

/-- A directory that `mkdtemp` may make: the template with six letters. -/
structure ResponseDirectory where
  letters : Bytes
  six : letters.length = 6
  plain : slash ∉ letters
  deriving DecidableEq, Repr

namespace ResponseDirectory

/-- The path of a private directory. -/
def path (directory : ResponseDirectory) : Bytes := ascii "/tmp/icu-response-" ++ directory.letters

/-- The path of an entry of a private directory. -/
def entry (directory : ResponseDirectory) (name : Bytes) : Bytes := directory.path ++ slash :: name

/-- A private directory and what is below it. -/
def region (directory : ResponseDirectory) : Set Bytes :=
  {path | path = directory.path ∨ directory.path ++ [slash] <+: path}

variable {directory first second : ResponseDirectory} {place : Bytes}

theorem length_path (directory : ResponseDirectory) : directory.path.length = 24 := by
  rw [path, List.length_append, directory.six]
  rfl

theorem path_injective (same : first.path = second.path) : first = second := by
  have letters : first.letters = second.letters := List.append_cancel_left same
  cases first
  cases second
  cases letters
  rfl

theorem path_mem_region (directory : ResponseDirectory) : directory.path ∈ directory.region :=
  Or.inl rfl

theorem entry_mem_region (directory : ResponseDirectory) (name : Bytes) :
    directory.entry name ∈ directory.region :=
  Or.inr ⟨name, by simp [entry]⟩

theorem entry_ne_path (directory : ResponseDirectory) (name : Bytes) :
    directory.entry name ≠ directory.path := by
  intro same
  have lengths := congrArg List.length same
  simp [entry] at lengths

theorem entry_injective {name other : Bytes}
    (same : directory.entry name = directory.entry other) : name = other :=
  List.tail_eq_of_cons_eq (List.append_cancel_left same)

theorem directoryOf_entry {name : Bytes} (plain : slash ∉ name) :
    directoryOf (directory.entry name) = some directory.path := by
  rw [directoryOf, entry, splitLast_append_cons plain, Option.map_some]

/-- A place in a region begins with the path of the directory. -/
theorem path_prefix_of_mem (member : place ∈ directory.region) : directory.path <+: place := by
  rcases member with rfl | below
  · exact List.prefix_rfl
  · exact (List.prefix_append _ _).trans below

/-- **The regions of two private directories are disjoint.** -/
theorem region_apart (here : place ∈ first.region) (there : place ∈ second.region) :
    first = second := by
  refine path_injective ((List.prefix_of_prefix_length_le (path_prefix_of_mem here)
    (path_prefix_of_mem there) ?_).eq_of_length ?_)
  · rw [length_path, length_path]
  · rw [length_path, length_path]

end ResponseDirectory

/-- A call that stays in a private directory: one on a file of it, or its removal. -/
def FileCall.Inside (directory : ResponseDirectory) (call : FileCall) : Prop :=
  (∃ permitted, call = .rmdir directory.path permitted) ∨
    (∃ name, slash ∉ name ∧ call.path = directory.entry name) ∧
      ∀ path permitted, call ≠ .rmdir path permitted

/-- A call that may give a directory up. -/
def FileCall.Closing (call : FileCall) : Prop := ∃ path permitted, call = .rmdir path permitted

/-- Two trees are alike in a private directory. -/
def Alike (directory : ResponseDirectory) (first second : FileTree) : Prop :=
  ∀ place ∈ directory.region, first.lookup place = second.lookup place

section Inside

variable {directory : ResponseDirectory} {call : FileCall} {first second tree : FileTree}

theorem FileCall.Inside.path_mem (inside : call.Inside directory) :
    call.path ∈ directory.region := by
  rcases inside with ⟨permitted, rfl⟩ | ⟨⟨name, _, path⟩, _⟩
  · exact directory.path_mem_region
  · rw [path]
    exact directory.entry_mem_region name

/-- What a call needs around its path is in its directory. -/
theorem FileCall.Inside.ready_congr (inside : call.Inside directory)
    (alike : Alike directory first second) : call.ready first = call.ready second := by
  rcases inside with ⟨permitted, rfl⟩ | ⟨⟨name, plain, path⟩, notRmdir⟩
  · rw [Bool.eq_iff_iff]
    simp only [ready, FileTree.isEmpty_iff]
    constructor
    · intro empty below isBelow
      rw [← alike below (Or.inr isBelow), empty below isBelow]
    · intro empty below isBelow
      rw [alike below (Or.inr isBelow), empty below isBelow]
  · cases call with
    | openExclusive path' permitted streams =>
        have known : path' = directory.entry name := path
        simp only [ready, known, ResponseDirectory.directoryOf_entry plain, Option.bind_some,
          alike _ directory.path_mem_region]
    | write => rfl
    | read => rfl
    | unlink => rfl
    | rmdir path' permitted => exact absurd rfl (notRmdir path' permitted)

theorem perform_answer (inside : call.Inside directory) (alike : Alike directory first second) :
    (perform call first).1 = (perform call second).1 := by
  unfold perform
  rw [inside.ready_congr alike, alike _ inside.path_mem]
  split <;> rfl

theorem perform_alike (inside : call.Inside directory) (alike : Alike directory first second) :
    Alike directory (perform call first).2 (perform call second).2 := by
  intro place member
  rw [lookup_perform, lookup_perform, inside.ready_congr alike, alike _ inside.path_mem,
    alike place member]

theorem perform_outside {place : Bytes} (tree : FileTree) (inside : call.Inside directory)
    (outside : place ∉ directory.region) :
    (perform call tree).2.lookup place = tree.lookup place := by
  rw [lookup_perform, if_neg]
  rintro ⟨rfl, _⟩
  exact outside inside.path_mem

/-- Only `rmdir` removes a directory. -/
theorem perform_root (inside : call.Inside directory) (stays : ¬ call.Closing)
    (held : tree.lookup directory.path ≠ none) :
    (perform call tree).2.lookup directory.path ≠ none := by
  rcases inside with ⟨permitted, rfl⟩ | ⟨⟨name, _, path⟩, _⟩
  · exact absurd ⟨_, _, rfl⟩ stays
  · rw [lookup_perform, path, if_neg fun both => directory.entry_ne_path name both.1.symm]
    exact held

end Inside

/-- **The private directories are a territory** of the file tree. -/
def privateDirectories :
    Territory ResponseDirectory Bytes (Option Node) FileCall (Option Bytes) FileTree where
  look := FileTree.lookup
  nothing := none
  blank := ⟨[]⟩
  look_blank := fun _ => rfl
  region := ResponseDirectory.region
  root := ResponseDirectory.path
  root_mem := ResponseDirectory.path_mem_region
  apart := ResponseDirectory.region_apart
  make := fun directory tree => tree.assign directory.path (some .directory)
  make_root := by
    intro directory tree
    rw [FileTree.lookup_assign, if_pos rfl]
    exact Option.some_ne_none _
  make_inside := by
    intro directory first second alike place member
    rw [FileTree.lookup_assign, FileTree.lookup_assign, alike place member]
  make_outside := by
    intro directory place tree outside
    rw [FileTree.lookup_assign, if_neg]
    rintro rfl
    exact outside directory.path_mem_region
  perform := perform
  inside := fun directory call => call.Inside directory
  closing := FileCall.Closing
  perform_answer := perform_answer
  perform_inside := perform_alike
  perform_outside := perform_outside
  perform_root := perform_root

end IcuTransport.Capture
