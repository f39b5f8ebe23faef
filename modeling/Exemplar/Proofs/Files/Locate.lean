import Exemplar.Proofs.Files.Content
import Exemplar.Proofs.Files.Path
import Exemplar.Proofs.Outcome

/-!
# Resolving paths

What a step of a path does depends only on what stands where it goes. So a path that leads somewhere, or
fails for any other reason than a missing name, does the same in every later state of the disk, and a path
without double dots leads to its own names.
-/

namespace Exemplar.Disk

variable {d d' : Disk} {location goal : List Text} {path piece : Text} {pieces : List Text}

/-! ### Steps -/

theorem content?_child {entries : List (Text × Node)} (name : Text)
    (h : d.at? location = some (.directory entries)) :
    d.content? (location ++ [name]) = (entries.lookup name).map Node.content := by
  rw [content?_append h, Node.at?, Node.child?]
  cases entries.lookup name <;> rfl

/-- A step depends only on what stands at its location and at the one it may lead to. -/
theorem step_eq (d : Disk) (location : List Text) (piece : Text) :
    d.step location piece =
      match d.content? location with
      | none => .error .notFound
      | some (.file _) => .error .notDirectory
      | some .directory =>
        if piece = [] ∨ piece = ['.'] then .ok location
        else if piece = ['.', '.'] then .ok location.dropLast
        else if nameLimit < (Utf8.encode piece).length then .error .nameTooLong
        else if (d.content? (location ++ [piece])).isSome then .ok (location ++ [piece])
        else .error .notFound := by
  unfold step
  cases hnode : d.at? location with
  | none => simp [content?, hnode]
  | some node =>
      cases node with
      | file bytes => simp [content?, hnode, Node.content]
      | directory entries =>
          rw [content?_child piece hnode, Option.isSome_map]
          simp [content?, hnode, Node.content]

theorem step_of_grows (h : Grows d d') (hstep : d.step location piece ≠ .error .notFound) :
    d'.step location piece = d.step location piece := by
  rw [step_eq] at hstep
  rw [step_eq, step_eq]
  cases hcontent : d.content? location with
  | none => simp [hcontent] at hstep
  | some content =>
      cases content with
      | file bytes =>
          obtain ⟨later, hlater⟩ := h.file hcontent
          rw [hlater]
      | directory =>
          rw [hcontent] at hstep
          rw [h.directory hcontent]
          dsimp only at hstep ⊢
          by_cases hchild : (d.content? (location ++ [piece])).isSome
          · obtain ⟨child, hchild'⟩ := Option.isSome_iff_exists.mp hchild
            obtain ⟨later, hlater, -⟩ := h.content? _ _ hchild'
            rw [hchild', hlater]
            rfl
          · rw [if_neg hchild] at hstep ⊢
            split_ifs at hstep ⊢ <;> first | rfl | exact absurd rfl hstep

theorem steps_of_grows (h : Grows d d')
    (hsteps : pieces.foldlM d.step location ≠ .error .notFound) :
    pieces.foldlM d'.step location = pieces.foldlM d.step location := by
  induction pieces generalizing location with
  | nil => rfl
  | cons piece pieces ih =>
      rw [List.foldlM_cons] at hsteps
      rw [List.foldlM_cons, List.foldlM_cons]
      cases hstep : d.step location piece with
      | error e =>
          rw [hstep, error_bind] at hsteps
          rw [step_of_grows h (by simpa [hstep] using hsteps), hstep]
          rfl
      | ok next =>
          rw [hstep, ok_bind] at hsteps
          rw [step_of_grows h (by simp [hstep]), hstep]
          exact ih hsteps

theorem step_eq_ok (hup : piece ≠ ['.', '.']) (h : d.step location piece = .ok goal) :
    d.content? location = some .directory ∧
      goal = location ++ (Path.Component.nameOfPiece? piece).toList ∧ (d.content? goal).isSome := by
  rw [step_eq] at h
  cases hcontent : d.content? location with
  | none => simp [hcontent] at h
  | some content =>
      cases content with
      | file bytes => simp [hcontent] at h
      | directory =>
          rw [hcontent] at h
          unfold Path.Component.nameOfPiece? Path.Component.ofPiece?
          dsimp only at h
          split_ifs at h ⊢ with hstay hlong hchild
          · cases h
            simp [hcontent]
          · cases h
            simpa [Path.Component.name?] using hchild

/-- Steps without a double dot lead along their names. -/
theorem steps_eq_ok (hup : ['.', '.'] ∉ pieces) (h : pieces.foldlM d.step location = .ok goal) :
    goal = location ++ pieces.filterMap Path.Component.nameOfPiece? := by
  induction pieces generalizing location with
  | nil => simpa [pure, Except.pure, eq_comm] using h
  | cons piece pieces ih =>
      rw [List.foldlM_cons, bind_eq_ok_iff] at h
      obtain ⟨next, hstep, hrest⟩ := h
      obtain ⟨hpiece, hpieces⟩ := not_or.mp (List.mem_cons.not.mp hup)
      obtain ⟨-, rfl, -⟩ := step_eq_ok (Ne.symm hpiece) hstep
      calc
        goal = location ++ (Path.Component.nameOfPiece? piece).toList ++
            pieces.filterMap Path.Component.nameOfPiece? := ih hpieces hrest
        _ = location ++ (piece :: pieces).filterMap Path.Component.nameOfPiece? := by
          cases hname : Path.Component.nameOfPiece? piece <;> simp [hname]

/-- Where a later state of the disk leads to a directory that was there before, it was led to before. -/
theorem steps_of_directory (hup : ['.', '.'] ∉ pieces) (h : pieces.foldlM d'.step location = .ok goal)
    (hgoal : d.content? goal = some .directory) : pieces.foldlM d.step location = .ok goal := by
  induction pieces generalizing location with
  | nil => exact h
  | cons piece pieces ih =>
      rw [List.foldlM_cons, bind_eq_ok_iff] at h
      obtain ⟨next, hstep, hrest⟩ := h
      obtain ⟨hpiece, hpieces⟩ := not_or.mp (List.mem_cons.not.mp hup)
      obtain ⟨hlocation, hnext, -⟩ := step_eq_ok (Ne.symm hpiece) hstep
      have hnextGoal : next <+: goal := ⟨_, (steps_eq_ok hpieces hrest).symm⟩
      have hnextDirectory : d.content? next = some .directory := content?_of_isPrefix hnextGoal hgoal
      have hlocationDirectory : d.content? location = some .directory :=
        content?_of_isPrefix ⟨_, hnext.symm⟩ hnextDirectory
      have hstep' : d.step location piece = .ok next := by
        rw [step_eq] at hstep ⊢
        rw [hlocation] at hstep
        rw [hlocationDirectory]
        dsimp only at hstep ⊢
        split_ifs at hstep ⊢ with hstay hdots hlong hlater hbefore
        · exact hstep
        · exact hstep
        · exact hstep
        · cases hstep
          simp [hnextDirectory] at hlater
      rw [List.foldlM_cons, hstep', ok_bind]
      exact ih hpieces hrest

/-! ### Paths -/

theorem checkPath_eq_ok_iff : checkPath path = .ok () ↔
    Char.ofNat 0 ∉ path ∧ path ≠ [] ∧ (Utf8.encode path).length ≤ pathLimit := by
  unfold checkPath
  split_ifs <;> simp_all

/-- Where the pieces of a path lead to, of a path that the system takes or not. -/
def follow (d : Disk) (path : Text) : Except FileError (List Text) :=
  (splitOn '/' path).foldlM d.step (d.start path)

theorem locate_eq (d : Disk) (path : Text) : d.locate path = checkPath path >>= fun _ => d.follow path :=
  rfl

theorem start_of_grows (h : Grows d d') (path : Text) : d'.start path = d.start path := by
  rw [start, start, h.home]

theorem follow_of_grows (h : Grows d d') (hfollow : d.follow path ≠ .error .notFound) :
    d'.follow path = d.follow path := by
  rw [follow, start_of_grows h]
  exact steps_of_grows h hfollow

theorem locate_of_grows (h : Grows d d') (hlocate : d.locate path ≠ .error .notFound) :
    d'.locate path = d.locate path := by
  rw [locate_eq] at hlocate ⊢
  rw [locate_eq]
  cases hcheck : checkPath path with
  | error e => rfl
  | ok =>
      rw [hcheck] at hlocate
      exact follow_of_grows h hlocate

theorem locate_eq_ok : d.locate path = .ok goal ↔ checkPath path = .ok () ∧ d.follow path = .ok goal := by
  rw [locate_eq, bind_eq_ok_iff]
  constructor
  · rintro ⟨⟨⟩, hcheck, hfollow⟩
    exact ⟨hcheck, hfollow⟩
  · rintro ⟨hcheck, hfollow⟩
    exact ⟨(), hcheck, hfollow⟩

theorem follow_eq_ok (hup : Path.Component.up ∉ Path.components path) (h : d.follow path = .ok goal) :
    goal = d.start path ++ Path.names path := by
  rw [Path.names_eq]
  exact steps_eq_ok (Path.up_mem_components.not.mp hup) h

theorem follow_of_directory (hgrows : Grows d d') (hup : Path.Component.up ∉ Path.components path)
    (h : d'.follow path = .ok goal) (hgoal : d.content? goal = some .directory) :
    d.follow path = .ok goal := by
  rw [follow, start_of_grows hgrows] at h
  exact steps_of_directory (Path.up_mem_components.not.mp hup) h hgoal

/-- A path whose last piece does not end in a dot leads to something of that name. -/
theorem exists_concat_of_locate {before : List Text} {name : Text} {c : Char}
    (hpieces : splitOn '/' path = before ++ [name]) (hname : name.getLast? = some c) (hdot : c ≠ '.')
    (h : d.locate path = .ok goal) : ∃ directory, goal = directory ++ [name] := by
  have hend {dots : Text} (hdots : dots.getLast? ≠ some c) : name ≠ dots := by
    rintro rfl
    exact hdots hname
  have hup : name ≠ ['.', '.'] := hend (by simpa using Ne.symm hdot)
  have hsome : Path.Component.nameOfPiece? name = some name := by
    unfold Path.Component.nameOfPiece? Path.Component.ofPiece?
    rw [if_neg (not_or.mpr ⟨hend (by simp), hend (by simpa using Ne.symm hdot)⟩), if_neg hup]
    rfl
  have hfollow := (locate_eq_ok.mp h).2
  rw [follow, hpieces, List.foldlM_append, bind_eq_ok_iff] at hfollow
  obtain ⟨directory, -, hstep⟩ := hfollow
  simp only [List.foldlM_cons, List.foldlM_nil, bind_pure] at hstep
  obtain ⟨-, rfl, -⟩ := step_eq_ok hup hstep
  exact ⟨directory, congrArg (directory ++ Option.toList ·) hsome⟩

/-- A name joined to a directory is one more step from there. -/
theorem follow_join (d : Disk) (directory : Text) {name : Text} (hname : '/' ∉ name) :
    d.follow (Path.join directory name) = d.follow directory >>= fun location => d.step location name := by
  have hslash (location : List Text) :
      (d.step location [] >>= fun next => d.step next name) = d.step location name := by
    rw [step_eq d location []]
    cases hcontent : d.content? location with
    | none => simp [step_eq, hcontent, error_bind]
    | some content =>
        cases content with
        | file bytes => simp [step_eq, hcontent, error_bind]
        | directory => simp [ok_bind]
  have hstart : d.start (Path.join directory name) = d.start directory := by
    rw [start, start, Path.isAbsolute_join hname]
  obtain ⟨before, hjoin, hdirectory⟩ := Path.splitOn_join directory hname
  rw [follow, follow, hstart, hjoin, List.foldlM_append]
  simp only [List.foldlM_cons, List.foldlM_nil, bind_pure]
  rcases hdirectory with h | h
  · rw [h]
  · rw [h, List.foldlM_append]
    simp only [List.foldlM_cons, List.foldlM_nil, bind_pure, bind_assoc, hslash]

theorem locate_join (d : Disk) (directory : Text) {name : Text} (hname : '/' ∉ name) :
    d.locate (Path.join directory name) =
      (do checkPath (Path.join directory name); d.step (← d.follow directory) name) := by
  rw [locate_eq, follow_join d directory hname]

/-- What a path leads to, seen from outside. -/
def contentOf (d : Disk) (path : Text) : Except FileError Content := (d.find path).map Node.content

theorem contentOf_eq (d : Disk) (path : Text) :
    d.contentOf path = d.locate path >>= fun goal =>
      match d.content? goal with
      | some content => .ok content
      | none => .error .notFound := by
  unfold contentOf find content?
  cases d.locate path with
  | error e => rfl
  | ok goal =>
      rw [ok_bind, ok_bind]
      cases d.at? goal <;> rfl

theorem contentOf_eq_ok_iff {content : Content} :
    d.contentOf path = .ok content ↔ ∃ goal, d.locate path = .ok goal ∧ d.content? goal = some content := by
  rw [contentOf_eq, bind_eq_ok_iff]
  refine exists_congr fun goal => and_congr_right fun _ => ?_
  cases d.content? goal <;> simp

/-- What opening gives for what stands at a location and for why it cannot be opened, if it cannot. -/
def opened : Option Content → Option FileError → Except FileError Content
  | none, _ => .error .notFound
  | some _, some e => .error e
  | some content, none => .ok content

/-- What opening a path gives, seen from outside. -/
def readContent (d : Disk) (path : Text) : Except FileError Content := (d.read path).map Node.content

theorem readContent_eq (d : Disk) (path : Text) :
    d.readContent path = d.locate path >>= fun goal => opened (d.content? goal) (d.denial goal) := by
  unfold readContent read content?
  cases d.locate path with
  | error e => rfl
  | ok goal =>
      rw [ok_bind, ok_bind]
      cases d.at? goal with
      | none => rfl
      | some node => cases d.denial goal <;> rfl

theorem readContent_eq_ok_iff {content : Content} : d.readContent path = .ok content ↔
    ∃ goal, d.locate path = .ok goal ∧ d.content? goal = some content ∧ d.denial goal = none := by
  rw [readContent_eq, bind_eq_ok_iff]
  refine exists_congr fun goal => and_congr_right fun _ => ?_
  cases d.content? goal <;> cases d.denial goal <;> simp [opened]

theorem readContent_of_locate {content : Content} (hlocate : d.locate path = .ok goal)
    (hgoal : d.content? goal = some content) :
    d.readContent path = match d.denial goal with
      | some e => .error e
      | none => .ok content := by
  rw [readContent_eq, hlocate, ok_bind, hgoal]
  cases d.denial goal <;> rfl

theorem contentOf_of_readContent {content : Content} (h : d.readContent path = .ok content) :
    d.contentOf path = .ok content := by
  obtain ⟨goal, hlocate, hgoal, -⟩ := readContent_eq_ok_iff.mp h
  exact contentOf_eq_ok_iff.mpr ⟨goal, hlocate, hgoal⟩

/-- What a path leads to, if it leads anywhere, is not denied. -/
def Grants (d : Disk) (path : Text) : Prop := ∀ goal, d.locate path = .ok goal → d.denial goal = none

theorem Grants.readContent_eq (h : d.Grants path) : d.readContent path = d.contentOf path := by
  rw [Disk.readContent_eq, contentOf_eq]
  cases hlocate : d.locate path with
  | error e => rfl
  | ok goal =>
      rw [ok_bind, ok_bind, h goal hlocate]
      cases d.content? goal <;> rfl

theorem isDirectory_iff :
    d.isDirectory path ↔ ∃ goal, d.locate path = .ok goal ∧ d.content? goal = some .directory := by
  unfold isDirectory find content?
  cases hlocate : d.locate path with
  | error e => simp [error_bind]
  | ok goal =>
      rw [ok_bind]
      cases hnode : d.at? goal with
      | none => simp [hnode]
      | some node => cases node <;> simp [hnode, Node.content, pure, Except.pure]

theorem isFile_iff : d.isFile path ↔ ∃ bytes, d.contentOf path = .ok (.file bytes) := by
  unfold isFile contentOf
  cases d.find path with
  | error e => simp [Except.map]
  | ok node => cases node <;> simp [Except.map, Node.content]

theorem exists_locate_of_isFile (h : d.isFile path) :
    ∃ goal bytes, d.locate path = .ok goal ∧ d.content? goal = some (.file bytes) := by
  obtain ⟨bytes, hcontent⟩ := isFile_iff.mp h
  obtain ⟨goal, hlocate, hgoal⟩ := contentOf_eq_ok_iff.mp hcontent
  exact ⟨goal, bytes, hlocate, hgoal⟩

theorem isDirectory_of_grows (h : Grows d d') (hpath : d.isDirectory path) : d'.isDirectory path := by
  obtain ⟨goal, hlocate, hgoal⟩ := isDirectory_iff.mp hpath
  have hlocate' : d'.locate path = .ok goal := by
    rw [locate_of_grows h (by simp [hlocate]), hlocate]
  exact isDirectory_iff.mpr ⟨goal, hlocate', h.directory hgoal⟩

end Exemplar.Disk
