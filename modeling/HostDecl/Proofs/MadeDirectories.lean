import HostDecl.Proofs.LogFolder

/-!
# Directories that are made

Directories are made part by part, from one that is there. Two dots lead back up, so the place that parts
reach is said by the parts alone (`reached`); what is on the disk decides only whether it can be reached.

What one part can lead to is said once, by `MakingStep`; everything else is an induction over the parts.

**The laws.** Nothing on the disk is changed but by directories where nothing was
(`node?_makeDirectoriesFrom`). If all directories are made, parts lead to the place that they reach, and
every place on the way is a directory (`opened_of_makeDirectoriesFrom`). If they are not, a name is too long
or a file stands at a place on the way (`fault_of_makeDirectoriesFrom`).
-/

namespace HostDecl

namespace Location

/-- The place that a part reaches from another one. -/
def next (origin : Location) (part : String) : Location :=
  if part = ".." then origin.parent else origin.child part

/-- The place that parts reach from another one. -/
def reached (origin : Location) (parts : List String) : Location := parts.foldl next origin

theorem reached_cons (origin : Location) (part : String) (rest : List String) :
    origin.reached (part :: rest) = (origin.next part).reached rest := List.foldl_cons ..

theorem next_of_ne {part : String} (name : part ≠ "..") (origin : Location) :
    origin.next part = origin.child part := if_neg name

end Location

namespace Disk

/-! ## One part -/

/-- What making directories leads to at its first part. -/
inductive MakingStep (d : Disk) (origin : Location) (part : String) (rest : List String) :
    Disk × Option FileFault → Prop
  | up (dots : part = "..") :
    MakingStep d origin part rest (d.makeDirectoriesFrom (origin.next part) rest)
  | there (short : part.utf8ByteSize ≤ nameLimit)
    (directory : d.node? (origin.next part) = some .directory) :
    MakingStep d origin part rest (d.makeDirectoriesFrom (origin.next part) rest)
  | made (short : part.utf8ByteSize ≤ nameLimit) (below : origin.next part ≠ .root)
    (inside : (origin.next part).parent = origin) (missing : d.node? (origin.next part) = none)
    {e : Disk} {fault : Option FileFault}
    (more : (d.put (origin.next part) .directory).makeDirectoriesFrom (origin.next part) rest =
      (e, fault)) : MakingStep d origin part rest (e, fault.map onceMade)
  | tooLong (long : nameLimit < part.utf8ByteSize) :
    MakingStep d origin part rest (d, some .nameTooLong)
  | blocked {content : ByteArray} {fault : FileFault}
    (file : d.node? (origin.next part) = some (.file content)) (onDisk : fault ≠ .unwritable) :
    MakingStep d origin part rest (d, some fault)

theorem makingStep (d : Disk) (origin : Location) (part : String) (rest : List String) :
    MakingStep d origin part rest (d.makeDirectoriesFrom origin (part :: rest)) := by
  rw [makeDirectoriesFrom]
  split
  next dots =>
    have step : MakingStep d origin part rest (d.makeDirectoriesFrom (origin.next part) rest) := .up dots
    rwa [Location.next, if_pos dots] at step
  next name =>
    have next := Location.next_of_ne name origin
    split
    next long => exact .tooLong long
    next short =>
      have short := Nat.le_of_not_lt short
      dsimp only
      rw [← next]
      split
      next directory => exact .there short directory
      next content file =>
        refine .blocked file ?_
        split
        · exact FileFault.noConfusion
        · exact FileFault.noConfusion
      next missing =>
        have below : origin.next part ≠ .root := next ▸ child_ne_root origin part
        exact .made short below (by rw [next, Location.parent_child]) missing rfl

/-! ## All parts -/

/-- Making directories leaves everything else where it is. -/
theorem node?_makeDirectoriesFrom (d : Disk) (origin : Location) (parts : List String)
    (place : Location) : (d.makeDirectoriesFrom origin parts).1.node? place = d.node? place ∨
      d.node? place = none ∧ (d.makeDirectoriesFrom origin parts).1.node? place = some .directory := by
  induction parts generalizing d origin with
  | nil => exact .inl rfl
  | cons part rest ih =>
    have step := d.makingStep origin part rest
    generalize d.makeDirectoriesFrom origin (part :: rest) = result at step ⊢
    cases step with
    | up | there => exact ih d _
    | tooLong | blocked => exact .inl rfl
    | made _ below _ missing more =>
      have others := ih (d.put (origin.next part) .directory) (origin.next part)
      rw [more, node?_put d _ place .directory below] at others
      rcases others with same | ⟨absent, made⟩
      · rw [same]
        split
        next here => exact .inr ⟨by rw [here, missing], rfl⟩
        next => exact .inl rfl
      · split at absent
        next => cases absent
        next => exact .inr ⟨absent, made⟩

/-- Directories are made at places that parts reach, and nowhere else. -/
theorem node?_makeDirectoriesFrom_of_ne {d : Disk} {origin : Location} {parts : List String}
    {place : Location} (away : ∀ front, front <+: parts → place ≠ origin.reached front) :
    (d.makeDirectoriesFrom origin parts).1.node? place = d.node? place := by
  induction parts generalizing d origin with
  | nil => rfl
  | cons part rest ih =>
    have awayNext : ∀ front, front <+: rest → place ≠ (origin.next part).reached front := by
      intro front before
      rw [← Location.reached_cons]
      exact away _ (List.prefix_cons_iff.mpr (.inr ⟨front, rfl, before⟩))
    have step := d.makingStep origin part rest
    generalize d.makeDirectoriesFrom origin (part :: rest) = result at step ⊢
    cases step with
    | up | there => exact ih awayNext
    | tooLong | blocked => rfl
    | made _ below _ _ more =>
      have other : place ≠ origin.next part := awayNext [] List.nil_prefix
      have others := ih (d := d.put (origin.next part) .directory) awayNext
      rw [more, node?_put d _ place .directory below, if_neg other] at others
      exact others

theorem working_makeDirectoriesFrom (d : Disk) (origin : Location) (parts : List String) :
    (d.makeDirectoriesFrom origin parts).1.working = d.working := by
  induction parts generalizing d origin with
  | nil => rfl
  | cons part rest ih =>
    have step := d.makingStep origin part rest
    generalize d.makeDirectoriesFrom origin (part :: rest) = result at step ⊢
    cases step with
    | up | there => exact ih d _
    | tooLong | blocked => rfl
    | made _ _ _ _ more =>
      have others := ih (d.put (origin.next part) .directory) (origin.next part)
      rwa [more] at others

/-- No text is written where directories are made. -/
theorem makeDirectoriesFrom_ne_unwritable {d : Disk} {origin : Location} {parts : List String} :
    (d.makeDirectoriesFrom origin parts).2 ≠ some .unwritable := by
  induction parts generalizing d origin with
  | nil => nofun
  | cons part rest ih =>
    have step := d.makingStep origin part rest
    generalize d.makeDirectoriesFrom origin (part :: rest) = result at step ⊢
    cases step with
    | up | there => exact ih
    | tooLong => nofun
    | blocked _ onDisk => exact fun same => onDisk (Option.some.inj same)
    | made _ _ _ _ more =>
      intro mapped
      obtain ⟨fault, found, once⟩ := Option.map_eq_some_iff.mp mapped
      cases fault <;> cases once
      exact ih ((congrArg Prod.snd more).trans found)

/-- What is put in a directory, and not in place of one, keeps a tree. -/
theorem IsTree.put {d : Disk} (tree : d.IsTree) {place : Location} {node : Node}
    (parent : d.node? place.parent = some .directory) (below : place ≠ .root)
    (free : d.node? place = some .directory → node = .directory) : (d.put place node).IsTree := by
  have kept : ∀ other, d.node? other = some .directory →
      (d.put place node).node? other = some .directory := by
    intro other directory
    rw [node?_put d place other node below]
    split
    next here => rw [free (here ▸ directory)]
    next => exact directory
  intro other found there
  by_cases here : other = place
  · rw [here]
    exact kept _ parent
  · rw [node?_put d place other node below, if_neg here] at there
    exact kept _ (tree other found there)

theorem IsTree.makeDirectoriesFrom {d : Disk} (tree : d.IsTree) {origin : Location}
    (there : d.node? origin = some .directory) (parts : List String) :
    (d.makeDirectoriesFrom origin parts).1.IsTree := by
  induction parts generalizing d origin with
  | nil => exact tree
  | cons part rest ih =>
    have step := d.makingStep origin part rest
    generalize d.makeDirectoriesFrom origin (part :: rest) = result at step ⊢
    cases step with
    | up dots =>
      refine ih tree ?_
      rw [Location.next, if_pos dots]
      exact tree _ _ there
    | there _ directory => exact ih tree directory
    | tooLong | blocked => exact tree
    | made _ below inside _ more =>
      have parent : d.node? (origin.next part).parent = some .directory := by rw [inside, there]
      have others := ih (tree.put parent below fun _ => rfl) (by rw [node?_put d _ _ _ below, if_pos rfl])
      rwa [more] at others

/-- Parts that can be followed lead to the place that they reach. -/
theorem eq_reached_of_follow {d : Disk} {origin place : Location} {parts : List String}
    (found : d.follow origin parts = .ok place) : place = origin.reached parts := by
  induction parts generalizing origin with
  | nil =>
    cases found
    rfl
  | cons part rest ih =>
    rw [Location.reached_cons, Location.next]
    rw [follow] at found
    split at found
    next => cases found
    next => cases found
    next =>
      split at found
      next up =>
        rw [if_pos up]
        exact ih found
      next down =>
        rw [if_neg down]
        split at found
        next => cases found
        next => exact ih found

/-- Where all directories are made, parts lead through directories to the place that they reach. -/
theorem opened_of_makeDirectoriesFrom {d opened : Disk} {origin : Location} {parts : List String}
    (tree : d.IsTree) (there : d.node? origin = some .directory)
    (made : d.makeDirectoriesFrom origin parts = (opened, none)) :
    opened.follow origin parts = .ok (origin.reached parts) ∧
      ∀ front, front <+: parts → opened.node? (origin.reached front) = some .directory := by
  have kept : opened.node? origin = some .directory := by
    have node := d.node?_makeDirectoriesFrom origin parts origin
    rw [made, there] at node
    exact node.resolve_right nofun
  induction parts generalizing d origin with
  | nil =>
    refine ⟨rfl, fun front before => ?_⟩
    rw [List.prefix_nil.mp before]
    exact kept
  | cons part rest ih =>
    -- Whatever the first part leads to, the others are followed from a directory.
    have go : ∀ {e : Disk}, part = ".." ∨ part.utf8ByteSize ≤ nameLimit → e.IsTree →
        e.node? (origin.next part) = some .directory →
        e.makeDirectoriesFrom (origin.next part) rest = (opened, none) →
        opened.follow origin (part :: rest) = .ok (origin.reached (part :: rest)) ∧
          ∀ front, front <+: part :: rest →
            opened.node? (origin.reached front) = some .directory := by
      intro e fine treeNext thereNext madeNext
      have keptNext : opened.node? (origin.next part) = some .directory := by
        have node := e.node?_makeDirectoriesFrom (origin.next part) rest (origin.next part)
        rw [madeNext, thereNext] at node
        exact node.resolve_right nofun
      obtain ⟨follows, fronts⟩ := ih treeNext thereNext madeNext keptNext
      refine ⟨?_, fun front before => ?_⟩
      · rw [follow, kept, Location.reached_cons, ← follows, Location.next]
        dsimp only
        split
        next => rfl
        next down => rw [if_neg (Nat.not_lt.mpr (fine.resolve_left down))]
      · rcases List.prefix_cons_iff.mp before with rfl | ⟨more, rfl, behind⟩
        · exact kept
        · rw [Location.reached_cons]
          exact fronts more behind
    have step := d.makingStep origin part rest
    rw [made] at step
    generalize result : (opened, (none : Option FileFault)) = last at step
    cases step with
    | up dots =>
      refine go (.inl dots) tree ?_ result.symm
      rw [Location.next, if_pos dots]
      exact tree _ _ there
    | there short directory => exact go (.inr short) tree directory result.symm
    | tooLong | blocked => cases result
    | made short below inside _ more =>
      obtain ⟨rfl, none⟩ := Prod.mk.inj result
      rw [Option.map_eq_none_iff.mp none.symm] at more
      have parent : d.node? (origin.next part).parent = some .directory := by rw [inside, there]
      exact go (.inr short) (tree.put parent below fun _ => rfl)
        (by rw [node?_put d _ _ _ below, if_pos rfl]) more

/-- Where some directory is not made, a name is too long, or a file stands on the way. -/
theorem fault_of_makeDirectoriesFrom {d opened : Disk} {origin : Location} {parts : List String}
    {fault : FileFault} (failed : d.makeDirectoriesFrom origin parts = (opened, some fault)) :
    (∃ part ∈ parts, nameLimit < part.utf8ByteSize) ∨
      ∃ front content, front <+: parts ∧ d.node? (origin.reached front) = some (.file content) := by
  induction parts generalizing d origin fault with
  | nil => cases failed
  | cons part rest ih =>
    have go : ∀ {e : Disk} {other : FileFault},
        (∀ place content, e.node? place = some (.file content) → d.node? place = some (.file content)) →
        e.makeDirectoriesFrom (origin.next part) rest = (opened, some other) →
        (∃ name ∈ part :: rest, nameLimit < name.utf8ByteSize) ∨
          ∃ front content, front <+: part :: rest ∧
            d.node? (origin.reached front) = some (.file content) := by
      intro e other files failedNext
      rcases ih failedNext with ⟨long, mem, exceeds⟩ | ⟨front, content, before, file⟩
      · exact .inl ⟨long, List.mem_cons_of_mem part mem, exceeds⟩
      · refine .inr ⟨part :: front, content, List.prefix_cons_iff.mpr (.inr ⟨front, rfl, before⟩), ?_⟩
        rw [Location.reached_cons]
        exact files _ _ file
    have step := d.makingStep origin part rest
    rw [failed] at step
    generalize result : (opened, some fault) = last at step
    cases step with
    | up | there => exact go (fun _ _ => id) result.symm
    | tooLong long => exact .inl ⟨part, List.mem_cons_self, long⟩
    | blocked file => exact .inr ⟨[part], _, ⟨rest, rfl⟩, file⟩
    | made _ below _ _ more =>
      obtain ⟨rfl, mapped⟩ := Prod.mk.inj result
      obtain ⟨other, found, -⟩ := Option.map_eq_some_iff.mp mapped.symm
      rw [found] at more
      refine go (fun place content file => ?_) more
      rw [node?_put d _ _ _ below] at file
      split at file
      next => cases file
      next => exact file

/-! ## Paths -/

/-- A disk on which a path can be followed: its nodes are a tree, and the path starts at a directory. -/
structure Rooted (d : Disk) (p : Path) : Prop where
  tree : d.IsTree
  origin : d.node? (d.base p) = some .directory

theorem pathFault?_of_makeDirectories {d opened : Disk} {p : Path}
    (made : d.makeDirectories p = (opened, none)) : pathFault? p = none := by
  unfold makeDirectories at made
  split at made
  next => cases made
  next fine => exact fine

/-- A path that the system does not take leaves the disk alone, and any other one makes directories. -/
theorem makeDirectories_cases (d : Disk) (p : Path) :
    (d.makeDirectories p).1 = d ∨
      d.makeDirectories p = d.makeDirectoriesFrom (d.base p) p.parts := by
  rw [makeDirectories]
  split
  next => exact .inl rfl
  next => exact .inr rfl

/-- Making the directories of a path leaves everything else where it is. -/
theorem node?_makeDirectories (d : Disk) (p : Path) (place : Location) :
    (d.makeDirectories p).1.node? place = d.node? place ∨
      d.node? place = none ∧ (d.makeDirectories p).1.node? place = some .directory := by
  rcases d.makeDirectories_cases p with same | made
  · exact .inl (by rw [same])
  · rw [made]
    exact d.node?_makeDirectoriesFrom (d.base p) p.parts place

theorem working_makeDirectories (d : Disk) (p : Path) :
    (d.makeDirectories p).1.working = d.working := by
  rcases d.makeDirectories_cases p with same | made
  · rw [same]
  · rw [made]
    exact d.working_makeDirectoriesFrom (d.base p) p.parts

theorem IsTree.makeDirectories {d : Disk} {p : Path} (tree : d.IsTree)
    (there : d.node? (d.base p) = some .directory) : (d.makeDirectories p).1.IsTree := by
  rcases d.makeDirectories_cases p with same | made
  · rw [same]
    exact tree
  · rw [made]
    exact tree.makeDirectoriesFrom there p.parts

/-- What is a file, or missing, once directories are made was so before. -/
theorem node?_of_makeDirectories {d : Disk} {p : Path} {place : Location} {content : Option ByteArray}
    (node : (d.makeDirectories p).1.node? place = content.map .file) :
    d.node? place = content.map .file := by
  rcases d.node?_makeDirectories p place with same | ⟨-, directory⟩
  · rw [← same, node]
  · rw [directory] at node
    cases content <;> cases node

/-- Files stay files, and no others come. -/
theorem file_makeDirectories_iff {d : Disk} {p : Path} {place : Location} {content : ByteArray} :
    (d.makeDirectories p).1.node? place = some (.file content) ↔
      d.node? place = some (.file content) := by
  constructor
  · intro file
    exact node?_of_makeDirectories (show _ = Option.map Node.file (some content) from file)
  · intro file
    rcases d.node?_makeDirectories p place with same | ⟨missing, -⟩
    · rw [same, file]
    · rw [missing] at file
      cases file

/-- All directories of a path can be made unless a file stands on the way. -/
theorem makeDirectories_eq_none_iff {d : Disk} {p : Path} (rooted : d.Rooted p)
    (fine : pathFault? p = none) (short : ∀ part ∈ p.parts, part.utf8ByteSize ≤ nameLimit) :
    (d.makeDirectories p).2 = none ↔
      ∀ front content, front <+: p.parts →
        d.node? ((d.base p).reached front) ≠ some (.file content) := by
  rw [makeDirectories, fine]
  dsimp only
  cases made : d.makeDirectoriesFrom (d.base p) p.parts with
  | mk opened fault =>
    cases fault with
    | some fault =>
      refine iff_of_false (Option.some_ne_none _) fun free => ?_
      rcases fault_of_makeDirectoriesFrom made with ⟨part, mem, long⟩ | ⟨front, content, before, file⟩
      · exact absurd (short part mem) (Nat.not_le_of_lt long)
      · exact free front content before file
    | none =>
      refine iff_of_true rfl fun front content before file => ?_
      have directory := (opened_of_makeDirectoriesFrom rooted.tree rooted.origin made).2 front before
      have node := d.node?_makeDirectoriesFrom (d.base p) p.parts ((d.base p).reached front)
      rw [made, directory, file] at node
      rcases node with same | ⟨missing, -⟩
      · cases same
      · cases missing

end Disk

end HostDecl
