import Mailroom.Command.Workspace

/-!
# Writing into workspaces

A path that can be written to leads to the key of a file.  The key does not depend on the
files, so writes to different keys do not disturb one another.

Main definitions:

- `Workspace.target?` is the file that a path leads to, be it there or not.
- `Workspace.content?` is what is read under a path.
- `Workspace.storeAll` writes one file after another.

Main results:

- Theorem `Workspace.write_eq_ok`: a path that leads to a file can be written to.
- Theorem `Workspace.content?_storeAll`: what is written to different files is read back.
- Theorem `Workspace.find?_storeAll`: the other files are left as they are.
-/

namespace Mailroom

/-- The key of the file that is at a place or can be put there. -/
def Place.key? : Place → Option String
  | file key _ => some key
  | vacant key => some key
  | _ => none

/-- What is in the file at a place. -/
def Place.content? : Place → Option Bytes
  | file _ content => some content
  | _ => none

namespace Workspace

variable {ws : Workspace} {path key : String} {content : Bytes}

/-- The key of the file that a path leads to, or that can be put at its end. -/
def target? (ws : Workspace) (path : String) : Option String :=
  (ws.resolve path).key?

/-- What is read under a path. -/
def content? (ws : Workspace) (path : String) : Option Bytes :=
  (ws.resolve path).content?

/-- The workspace after a file is written, if the path leads to one. -/
def store (ws : Workspace) (path : String) (content : Bytes) : Workspace :=
  match ws.target? path with
  | some key => { ws with files := ws.files.insert key content }
  | none => ws

/-- The workspace after some files are written one after the other. -/
def storeAll (ws : Workspace) (written : List (String × Bytes)) : Workspace :=
  written.foldl (fun ws w => ws.store w.1 w.2) ws

/-! ## Targets -/

/-- Names lead to a file that has what is found under its key. -/
theorem content?_follow {here names : List String}
    (h : (ws.follow here names).key? = some key) :
    (ws.follow here names).content? = ws.files.find? key := by
  fun_induction follow ws here names with
  | case1 | case4 | case7 | case9 => contradiction
  | case2 _ _ ih | case3 _ _ _ ih | case5 _ _ _ _ _ _ _ ih => exact ih h
  | case6 here name _ _ _ _ content hfound | case8 here name _ _ _ _ hfound =>
    cases h
    exact hfound.symm

/-- The file that names lead to does not depend on the files. -/
theorem key?_follow (files : Table String Bytes) (here names : List String) :
    (({ ws with files := files } : Workspace).follow here names).key? =
      (ws.follow here names).key? := by
  have hdirectory : ∀ there, ({ ws with files := files } : Workspace).isDirectory there =
      ws.isDirectory there := fun _ => rfl
  induction names generalizing here with
  | nil => rfl
  | cons name rest ih =>
    simp only [follow, hdirectory]
    split
    next => exact ih here
    next =>
      split
      next => exact ih here.tail
      next =>
        split
        next => rfl
        next =>
          split
          next => exact ih (name :: here)
          next =>
            -- at the last name both places have its key, before it neither has one
            cases files.find? (fileKey (name :: here)) <;>
              cases ws.files.find? (fileKey (name :: here)) <;> cases rest <;> rfl

/-- A path that leads to a file is followed. -/
theorem resolve_of_target? (h : ws.target? path = some key) :
    ws.resolve path = ws.follow (if isAbsolute path then [] else ws.current) (pathNames path) := by
  unfold target? resolve at h
  split at h
  next => contradiction
  next hpath =>
    split at h
    next => contradiction
    next hlength => rw [resolve, if_neg hpath, if_neg hlength]

/-- What is read under a path is what the file that it leads to has. -/
theorem content?_eq_find? (h : ws.target? path = some key) :
    ws.content? path = ws.files.find? key := by
  have hplace := resolve_of_target? h
  rw [target?, hplace] at h
  rw [content?, hplace]
  exact content?_follow h

/-- Paths lead to the same files whatever the files hold. -/
theorem target?_files (files : Table String Bytes) (path : String) :
    ({ ws with files := files } : Workspace).target? path = ws.target? path := by
  unfold target? resolve
  split
  next => rfl
  next =>
    split
    next => rfl
    next => exact key?_follow files _ _

/-! ## One write -/

/-- A path that leads to a file can be written to. -/
theorem write_eq_ok (h : ws.target? path = some key) (content : Bytes) :
    ws.write path content = .ok (ws.store path content) := by
  unfold write store target?
  unfold target? at h
  cases hplace : ws.resolve path <;> rw [hplace] at h
  case file | vacant => rfl
  all_goals contradiction

/-- A write leaves the directories alone. -/
theorem directories_store (ws : Workspace) (path : String) (content : Bytes) :
    (ws.store path content).current = ws.current ∧
      (ws.store path content).directories = ws.directories := by
  unfold store
  split <;> exact ⟨rfl, rfl⟩

/-- Paths lead to the same files after a write. -/
@[simp] theorem target?_store (ws : Workspace) (other : String) (content : Bytes)
    (path : String) : (ws.store other content).target? path = ws.target? path := by
  unfold store
  split
  next => exact target?_files _ path
  next => rfl

/-- A write changes the file that its path leads to. -/
theorem find?_store_self (h : ws.target? path = some key) (content : Bytes) :
    (ws.store path content).files.find? key = some content := by
  simp only [store, h, Table.find?_insert_self]

/-- A write leaves every file alone that its path does not lead to. -/
theorem find?_store (h : ws.target? path ≠ some key) (content : Bytes) :
    (ws.store path content).files.find? key = ws.files.find? key := by
  unfold store
  split
  next other hother =>
    have hne : key ≠ other := by
      rintro rfl
      exact h hother
    exact Table.find?_insert_of_ne _ _ hne
  next => rfl

/-! ## Several writes -/

/-- Writes go on after a first one. -/
theorem storeAll_cons (ws : Workspace) (first : String × Bytes)
    (rest : List (String × Bytes)) :
    ws.storeAll (first :: rest) = (ws.store first.1 first.2).storeAll rest :=
  rfl

/-- Writes follow on one another. -/
theorem storeAll_append (ws : Workspace) (first second : List (String × Bytes)) :
    ws.storeAll (first ++ second) = (ws.storeAll first).storeAll second :=
  List.foldl_append

/-- Writes leave the directories alone. -/
theorem directories_storeAll (ws : Workspace) (written : List (String × Bytes)) :
    (ws.storeAll written).current = ws.current ∧
      (ws.storeAll written).directories = ws.directories := by
  induction written generalizing ws with
  | nil => exact ⟨rfl, rfl⟩
  | cons first rest ih =>
    have hfirst := directories_store ws first.1 first.2
    have hrest := ih (ws.store first.1 first.2)
    exact ⟨hrest.1.trans hfirst.1, hrest.2.trans hfirst.2⟩

/-- Paths lead to the same files after some writes. -/
@[simp] theorem target?_storeAll (ws : Workspace) (written : List (String × Bytes))
    (path : String) : (ws.storeAll written).target? path = ws.target? path := by
  induction written generalizing ws with
  | nil => rfl
  | cons first rest ih => rw [storeAll_cons, ih, target?_store]

/-- Writes leave every file alone that their paths do not lead to. -/
theorem find?_storeAll {written : List (String × Bytes)}
    (h : ∀ w ∈ written, ws.target? w.1 ≠ some key) :
    (ws.storeAll written).files.find? key = ws.files.find? key := by
  induction written generalizing ws with
  | nil => rfl
  | cons first rest ih =>
    have hrest : ∀ w ∈ rest, (ws.store first.1 first.2).target? w.1 ≠ some key := by
      intro w hw
      rw [target?_store]
      exact h w (List.mem_cons_of_mem _ hw)
    rw [storeAll_cons, ih hrest, find?_store (h first List.mem_cons_self)]

/-- What is written to different files is read back. -/
theorem content?_storeAll {written : List (String × Bytes)}
    (htargets : ∀ w ∈ written, ws.target? w.1 ≠ none)
    (hapart : written.Pairwise fun v w => ws.target? v.1 ≠ ws.target? w.1)
    {w : String × Bytes} (hw : w ∈ written) :
    (ws.storeAll written).content? w.1 = some w.2 := by
  induction written generalizing ws with
  | nil => exact absurd hw List.not_mem_nil
  | cons first rest ih =>
    obtain ⟨hfirst, hrest⟩ := List.pairwise_cons.mp hapart
    rw [storeAll_cons]
    rcases List.mem_cons.mp hw with rfl | hw
    · obtain ⟨key, hkey⟩ := Option.ne_none_iff_exists'.mp (htargets w List.mem_cons_self)
      have hafter : ((ws.store w.1 w.2).storeAll rest).target? w.1 = some key := by
        rw [target?_storeAll, target?_store, hkey]
      have hlater : ∀ v ∈ rest, (ws.store w.1 w.2).target? v.1 ≠ some key := by
        intro v hv
        rw [target?_store, ← hkey]
        exact (hfirst v hv).symm
      rw [content?_eq_find? hafter, find?_storeAll hlater, find?_store_self hkey]
    · refine ih ?_ ?_ hw
      · simp only [target?_store]
        exact fun v hv => htargets v (List.mem_cons_of_mem _ hv)
      · simp only [target?_store]
        exact hrest

end Workspace

end Mailroom
