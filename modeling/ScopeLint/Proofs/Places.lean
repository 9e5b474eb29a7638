import ScopeLint.FileSystem
import ScopeLint.Proofs.Joining

/-!
# Places and the paths that lead to them

Many paths lead to one place. Joined to the current directory, each of them is followed one component at
a time. A path that leads to a file ends in the name of that file, and the path above it leads to the
directory in which the file lies. One spelling of a place is distinguished, `pathOf`, and the path above
it is the spelling of the place above.
-/

namespace ScopeLint.FileSystem

open ScopeLint.Path (IsName)

variable {fs : FileSystem} {p q : Path} {here place : Place} {name : List Char}

theorem exists_node_of_file (isFile : (fs.file? place).isSome) :
    ∃ content, fs.node? place = some (.file content) := by
  rw [file?] at isFile
  split at isFile
  · exact ⟨_, ‹_›⟩
  · cases isFile

theorem not_isDirectoryAt (isFile : (fs.file? place).isSome) : ¬ fs.isDirectoryAt place := by
  obtain ⟨content, node⟩ := exists_node_of_file isFile
  simp [isDirectoryAt, node]

/-! ## Following components -/

section

variable {c : Component} {cs ds : List Component}

theorem follow_append : fs.follow here (cs ++ ds) = .ok place ↔
    ∃ mid, fs.follow here cs = .ok mid ∧ fs.follow mid ds = .ok place := by
  induction cs generalizing here with
  | nil => simp [follow]
  | cons c cs ih =>
      rw [List.cons_append]
      by_cases directory : fs.isDirectoryAt here
      · cases c with
        | root => simp [follow, directory, ih]
        | current => simp [follow, directory, ih]
        | parent => simp [follow, directory, ih]
        | name n =>
            by_cases there : (fs.node? (here ++ [n])).isSome
            · simp [follow, directory, there, ih]
            · simp [follow, directory, there]
      · cases c <;> simp [follow, directory]

theorem follow_name : fs.follow here [.name name] = .ok place ↔
    fs.isDirectoryAt here ∧ (fs.node? (here ++ [name])).isSome ∧ place = here ++ [name] := by
  by_cases directory : fs.isDirectoryAt here
  · by_cases there : (fs.node? (here ++ [name])).isSome
    · simp [follow, directory, there, eq_comm]
    · simp [follow, directory, there]
  · simp [follow, directory]

/-- Whether a place is there and below nothing but directories, by names that a path can spell. -/
inductive Reached (fs : FileSystem) : Place → Prop
  | root : Reached fs []
  | child {above : Place} {name : List Char} (reached : Reached fs above)
      (directory : fs.isDirectoryAt above) (isName : IsName name)
      (there : (fs.node? (above ++ [name])).isSome) : Reached fs (above ++ [name])

theorem Reached.dropLast (reached : fs.Reached place) : fs.Reached place.dropLast := by
  cases reached with
  | root => exact .root
  | child reached => rwa [List.dropLast_concat]

theorem Reached.isDirectoryAt_dropLast (reached : fs.Reached place)
    (directory : fs.isDirectoryAt place) : fs.isDirectoryAt place.dropLast := by
  cases reached with
  | root => exact directory
  | child _ above => rwa [List.dropLast_concat]

theorem Reached.above (reached : fs.Reached place) (directory : fs.isDirectoryAt place)
    (inside : here <+: place) : fs.Reached here ∧ fs.isDirectoryAt here := by
  induction reached with
  | root =>
      obtain rfl := List.prefix_nil.mp inside
      exact ⟨.root, rfl⟩
  | child reached above isName there ih =>
      rcases List.prefix_concat_iff.mp inside with rfl | inside
      · exact ⟨.child reached above isName there, directory⟩
      · exact ih above inside

/-- A step leads from a reached place to another, and unless it is a name, to a directory. -/
theorem Reached.step (reached : fs.Reached here) (isName : ∀ name, c = .name name → IsName name)
    (leads : fs.follow here [c] = .ok place) : fs.Reached place ∧ fs.isDirectoryAt here ∧
      (fs.isDirectoryAt place ∨ ∃ name, c = .name name ∧ place = here ++ [name]) := by
  have directory : fs.isDirectoryAt here := by
    by_contra other
    cases c <;> simp [follow, other] at leads
  cases c with
  | root =>
      obtain rfl : [] = place := by simpa [follow, directory] using leads
      exact ⟨.root, directory, .inl rfl⟩
  | current =>
      obtain rfl : here = place := by simpa [follow, directory] using leads
      exact ⟨reached, directory, .inl directory⟩
  | parent =>
      obtain rfl : here.dropLast = place := by simpa [follow, directory] using leads
      exact ⟨reached.dropLast, directory, .inl (reached.isDirectoryAt_dropLast directory)⟩
  | name n =>
      obtain ⟨-, there, rfl⟩ := follow_name.mp leads
      exact ⟨.child reached directory (isName n rfl) there, directory, .inr ⟨n, rfl, rfl⟩⟩

/-- Names that a path can spell lead from a reached place to another. -/
theorem Reached.run (reached : fs.Reached here) (names : ∀ name, .name name ∈ cs → IsName name)
    (leads : fs.follow here cs = .ok place) : fs.Reached place := by
  induction cs generalizing here with
  | nil =>
      cases leads
      exact reached
  | cons c cs ih =>
      have leads : fs.follow here ([c] ++ cs) = .ok place := leads
      obtain ⟨mid, step, rest⟩ := follow_append.mp leads
      have next := reached.step (fun name same => names name (same ▸ List.mem_cons_self)) step
      exact ih next.1 (fun name member => names name (List.mem_cons_of_mem _ member)) rest

theorem reached_of_follow (walked : fs.follow [] p.components = .ok place) : fs.Reached place :=
  Reached.root.run (fun _ member => Path.isName_of_mem_components member) walked

end

/-! ## Resolving paths -/

/-- Whether a path leads to a directory. Other than for `resolve?`, the empty path leads to the current
one. -/
structure Leads (fs : FileSystem) (p : Path) (place : Place) : Prop where
  follow : fs.follow [] (fs.current.join p).components = .ok place
  directory : fs.isDirectoryAt place

theorem Leads.reached (leads : fs.Leads p place) : fs.Reached place :=
  reached_of_follow leads.follow

theorem resolve?_eq_some_iff : fs.resolve? p = some place ↔
    p.chars ≠ [] ∧ fs.follow [] (fs.current.join p).components = .ok place ∧
      ((fs.current.join p).endsInDirectory → fs.isDirectoryAt place) := by
  rw [resolve?, resolve]
  by_cases empty : p.chars = []
  · simp [empty, Except.toOption]
  · rw [if_neg empty]
    cases walked : fs.follow [] (fs.current.join p).components with
    | error absence => simp [walked, Except.toOption]
    | ok found =>
        simp only [walked, Bool.and_eq_true, Bool.not_eq_true']
        split
        · rename_i stuck
          refine iff_of_false (by simp [Except.toOption]) ?_
          rintro ⟨-, same, directory⟩
          cases same
          rw [directory stuck.1] at stuck
          cases stuck.2
        · rename_i free
          constructor
          · intro same
            cases same
            exact ⟨empty, rfl, fun ends => by simpa [ends] using free⟩
          · rintro ⟨-, same, -⟩
            cases same
            rfl

theorem Leads.resolve? (leads : fs.Leads p place) (filled : p.chars ≠ []) :
    fs.resolve? p = some place :=
  resolve?_eq_some_iff.mpr ⟨filled, leads.follow, fun _ => leads.directory⟩

/-- A name after a path leads to what has this name in the directory that the path leads to. -/
theorem resolve?_join_name (isName : IsName name) : fs.resolve? (q.join ⟨name⟩) = some place ↔
    ∃ above, fs.Leads q above ∧ (fs.node? (above ++ [name])).isSome ∧ place = above ++ [name] := by
  have filled : (q.join ⟨name⟩).chars ≠ [] := by
    rw [Path.join_eq isName.not_isAbsolute]
    simp [(Path.significant_iff.mp isName.kept).1]
  rw [resolve?_eq_some_iff, Path.join_assoc, Path.components_join_name isName,
    Path.endsInDirectory_join_name isName, follow_append]
  constructor
  · rintro ⟨-, ⟨above, walked, step⟩, -⟩
    obtain ⟨directory, there, rfl⟩ := follow_name.mp step
    exact ⟨above, ⟨walked, directory⟩, there, rfl⟩
  · rintro ⟨above, leads, there, rfl⟩
    exact ⟨filled, ⟨above, leads.follow, follow_name.mpr ⟨leads.directory, there, rfl⟩⟩, nofun⟩

theorem Leads.resolve?_join (leads : fs.Leads q place) (isName : IsName name) :
    fs.resolve? (q.join ⟨name⟩) =
      if (fs.node? (place ++ [name])).isSome then some (place ++ [name]) else none := by
  split
  · rename_i there
    exact (resolve?_join_name isName).mpr ⟨place, leads, there, rfl⟩
  · rename_i absent
    refine Option.eq_none_iff_forall_ne_some.mpr fun other resolves => ?_
    obtain ⟨above, leads', there, -⟩ := (resolve?_join_name isName).mp resolves
    have same : Except.ok place = Except.ok above := leads.follow.symm.trans leads'.follow
    cases same
    exact absent there

theorem Leads.resolve?_join_file (leads : fs.Leads q place) (isName : IsName name)
    (isFile : (fs.file? (place ++ [name])).isSome) :
    fs.resolve? (q.join ⟨name⟩) = some (place ++ [name]) := by
  obtain ⟨content, node⟩ := exists_node_of_file isFile
  rw [leads.resolve?_join isName, node]
  rfl

/-- The components that are followed before those of a path. -/
def origin (fs : FileSystem) (p : Path) : List Component :=
  if p.isAbsolute then [] else fs.current.components

theorem follow_join (fs : FileSystem) (p : Path) :
    fs.follow [] (fs.current.join p).components = fs.follow [] (fs.origin p ++ p.steps) := by
  rw [origin]
  by_cases rooted : p.isAbsolute
  · have head : p.head = .root := of_decide_eq_true rooted
    rw [Path.join_of_isAbsolute rooted, if_pos rooted, Path.components_eq, head]
    rfl
  · rw [if_neg rooted]
    by_cases empty : fs.current.chars = []
    · have current : fs.current = ⟨[]⟩ := congrArg Path.mk empty
      rw [current, Path.nil_join, Path.components_eq p]
      cases head : p.head with
      | root => exact absurd (decide_eq_true head) rooted
      | current => rfl
      | none => rfl
    · rw [Path.components_join empty rooted]

/-- Components that lead to a file are those of a path whose last piece leaves one of them. -/
theorem last_piece_of_follow (walked : fs.follow [] p.components = .ok place)
    (isFile : (fs.file? place).isSome) (ends : ¬ p.endsInDirectory) :
    ∃ last, p.pieces.getLast? = some last ∧ Path.significant last := by
  rcases List.eq_nil_or_concat' p.pieces with empty | ⟨before, last, split⟩
  · exact absurd empty (Text.splitAt_ne_nil _ _)
  refine ⟨last, by rw [split, List.getLast?_concat], ?_⟩
  by_contra dropped
  cases before with
  | nil =>
      -- without pieces only the head is left, which leads to the root
      have headOnly : p.components = p.head.components := by
        simp [Path.components, split, dropped]
      have atRoot : place = [] := by
        rw [headOnly] at walked
        cases head : p.head <;> rw [head] at walked <;> cases walked <;> rfl
      exact not_isDirectoryAt isFile (atRoot ▸ rfl)
  | cons first more =>
      have last_dropped : p.endsInDirectory = !Path.significant last := by
        rw [Path.endsInDirectory, split, List.reverse_concat]
        cases reversed : (first :: more).reverse with
        | nil => simp at reversed
        | cons => rfl
      exact ends (by simp [last_dropped, dropped])

/-- A path that leads to a file ends in a component. -/
theorem exists_last_piece (resolves : fs.resolve? p = some place) (isFile : (fs.file? place).isSome) :
    ∃ before last, p.pieces = before ++ [last] ∧ Path.significant last := by
  obtain ⟨-, walked, ends⟩ := resolve?_eq_some_iff.mp resolves
  obtain ⟨last, atEnd, kept⟩ := last_piece_of_follow walked isFile (mt ends (not_isDirectoryAt isFile))
  obtain ⟨before, split⟩ := List.getLast?_eq_some_iff.mp (Path.getLast?_pieces_of_join atEnd kept)
  exact ⟨before, last, split, kept⟩

/-- The path above one that leads to a file leads to the directory of the file. It is empty when the path
has no slash. -/
theorem exists_parent_leads (resolves : fs.resolve? p = some place)
    (isFile : (fs.file? place).isSome) :
    ∃ q, p.parent? = some q ∧ (q.chars = [] ↔ '/' ∉ p.chars) ∧ fs.Leads q place.dropLast := by
  obtain ⟨before, last, split, kept⟩ := exists_last_piece resolves isFile
  obtain ⟨q, above, sameHead, steps, empty⟩ := Path.exists_parent? split kept
  have sameOrigin : fs.origin q = fs.origin p := by
    rw [origin, origin, Path.isAbsolute, Path.isAbsolute, sameHead]
  obtain ⟨-, walked, -⟩ := resolve?_eq_some_iff.mp resolves
  rw [follow_join, steps, ← List.append_assoc, ← sameOrigin, follow_append] at walked
  obtain ⟨directory, toDirectory, lastStep⟩ := walked
  rw [← follow_join] at toDirectory
  have reached := reached_of_follow toDirectory
  have isName : ∀ name, Component.ofPiece last = .name name → IsName name := by
    intro name same
    have member : .name name ∈ p.components := by
      rw [Path.components_eq, steps, ← same]
      simp
    exact Path.isName_of_mem_components member
  obtain ⟨-, isDirectory, atDirectory | ⟨name, -, rfl⟩⟩ := reached.step isName lastStep
  · exact absurd atDirectory (not_isDirectoryAt isFile)
  · exact ⟨q, above, empty, by rw [List.dropLast_concat]; exact ⟨toDirectory, isDirectory⟩⟩

/-! ## The spelling of a place -/

theorem Reached.isName (reached : fs.Reached place) : ∀ name ∈ place, IsName name := by
  induction reached with
  | root => exact nofun
  | child _ _ isName _ ih =>
      intro name member
      rcases List.mem_append.mp member with above | last
      · exact ih name above
      · exact List.mem_singleton.mp last ▸ isName

theorem isAbsolute_pathOf (place : Place) : (pathOf place).isAbsolute :=
  rfl

section

variable (names : ∀ name ∈ place, IsName name)

include names

theorem components_pathOf : (pathOf place).components = .root :: place.map .name := by
  have free : ∀ piece ∈ place, '/' ∉ piece := fun piece member => (names piece member).free
  have suits : Path.Head.root.Suits place.head? := trivial
  have all : place.filter Path.significant = place :=
    List.filter_eq_self.mpr fun piece member => (names piece member).kept
  have read := Path.components_written suits free
  rw [all, List.map_congr_left fun piece member => (names piece member).ofPiece] at read
  exact read

theorem pieces_pathOf (inhabited : place ≠ []) : (pathOf place).pieces = place :=
  Text.splitAt_joinWith inhabited fun piece member => (names piece member).free

end

theorem parent?_pathOf {above : Place} (names : ∀ other ∈ above ++ [name], IsName other) :
    (pathOf (above ++ [name])).parent? = some (pathOf above) := by
  have isName : IsName name := names name (List.mem_append_right _ List.mem_cons_self)
  have trimmed : Path.trimPieces above = above := by
    refine Path.trimPieces_eq_self fun last ends => (names last ?_).kept
    exact List.mem_append_left [name] (List.mem_of_getLast? ends)
  rw [Path.parent?_eq (pieces_pathOf names (by simp)) isName.kept, trimmed]
  rfl

theorem Reached.leads_pathOf (reached : fs.Reached place) (directory : fs.isDirectoryAt place) :
    fs.Leads (pathOf place) place := by
  refine ⟨?_, directory⟩
  rw [Path.join_of_isAbsolute (isAbsolute_pathOf place), components_pathOf reached.isName]
  clear directory
  induction reached with
  | root => rfl
  | child reached directory isName there ih =>
      rw [List.map_append, ← List.cons_append]
      exact follow_append.mpr ⟨_, ih, follow_name.mpr ⟨directory, there, rfl⟩⟩

/-- Every place on the way to a directory is one that its spelling leads to. -/
theorem Reached.leads_above {above : Place} (reached : fs.Reached place)
    (directory : fs.isDirectoryAt place) (inside : above <+: place) : fs.Leads (pathOf above) above := by
  obtain ⟨aboveReached, aboveDirectory⟩ := reached.above directory inside
  exact aboveReached.leads_pathOf aboveDirectory

end ScopeLint.FileSystem
