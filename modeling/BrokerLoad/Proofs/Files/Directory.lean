import BrokerLoad.Files.Search
import BrokerLoad.Proofs.Config.Broker
import BrokerLoad.Proofs.Contract
import BrokerLoad.Proofs.Text.Lines
import Mathlib.Data.List.Basic

/-!
# Files that were written

A file keeps the text that was left in it last, under every path that leads to it. A bare name always
leads to the file of that name in the working directory, whatever else lies there; and a pattern
without folders finds the names in the working directory that fit it.

## Main definitions

* `IsBareName`, `IsFileName`: a single step of a path, and one that a file can have for a name.
* `fitsName`: whether a name fits a pattern without folders.

## Main statements

* `Directory.find?_put`: what a file holds after one was written.
* `Directory.read_of_outlet`: a file is read under every path that leads to it.
* `Directory.outletAt_of_isFileName`: a bare name leads to its file.
* `Directory.pairwise_pathsMatching`: paths are found in order.
* `Directory.pathsMatching_of_bare`: what a pattern without folders finds.
-/

namespace BrokerLoad

/-! ## §1 Writing and reading -/

namespace Directory

variable {d : Directory}

/-- Replacing the files of a name replaces what is found under it, and nothing else. -/
theorem lookup_replaced (files : List (String × String)) (name text other : String) :
    (files.map fun f => if f.1 = name then (name, text) else f).lookup other =
      if other = name then (files.lookup name).map fun _ => text else files.lookup other := by
  induction files with
  | nil => simp
  | cons f rest ih =>
    rw [List.map_cons, List.lookup_cons, ih, List.lookup_cons, List.lookup_cons]
    by_cases hname : f.1 = name
    · by_cases hother : other = name
      · simp [hname, hother]
      · simp [hname, hother, beq_false_of_ne hother]
    · by_cases hother : other = name
      · simp [hname, hother, beq_false_of_ne (Ne.symm hname)]
      · simp [hname, hother]

/-- A file keeps the text that was left in it last. -/
theorem find?_put (name text other : String) :
    (d.put name text).find? other = if other = name then some text else d.find? other := by
  cases hfind : d.files.lookup name with
  | some old =>
    have hput : d.put name text = ⟨d.files.map fun f => if f.1 = name then (name, text) else f⟩ :=
      if_pos (by rw [find?, hfind]; rfl)
    rw [hput, find?, lookup_replaced, hfind]
    rfl
  | none =>
    have hput : d.put name text = ⟨d.files ++ [(name, text)]⟩ :=
      if_neg (by rw [find?, hfind]; exact Bool.false_ne_true)
    rw [hput, find?, find?, List.lookup_append]
    by_cases hother : other = name
    · rw [if_pos hother, hother, hfind]
      simp
    · rw [if_neg hother, List.lookup_cons, beq_false_of_ne hother]
      simp

/-- What is written to a file is left in it. -/
theorem write_of_outlet {path name : String} (h : d.outletAt path = .ok (.file name))
    (text : String) : d.write path text = .ok (d.put name text) := by
  rw [write, h]
  rfl

theorem eq_put_of_write {path name text : String} {v : Directory}
    (h : d.outletAt path = .ok (.file name)) (hwrite : d.write path text = .ok v) :
    v = d.put name text :=
  Except.ok.inj (hwrite.symm.trans (write_of_outlet h text))

/-- A file is read under every path that leads to it. -/
theorem read_of_outlet {path name text : String} (h : d.outletAt path = .ok (.file name))
    (hfind : d.find? name = some text) : d.read path = .ok text := by
  unfold outletAt at h
  unfold read
  split at h
  · next f step _ =>
    have hname : f.fileName step = name := by
      split at h
      · cases h
      · cases h
        rfl
    have hchild : d.child? f step = some (.file text) := by
      unfold child?
      rw [hname, hfind]
    rw [hchild]
  · cases h
  · cases h
  · cases h

end Directory

/-! ## §2 Bare names -/

/-- A single step of a path: not empty, without slashes and null bytes, and not one of the two names
of folders. -/
structure IsBareName (name : String) : Prop where
  slash : '/' ∉ name.toList
  null : '\x00' ∉ name.toList
  filled : name ≠ ""
  self : name ≠ "."
  outer : name ≠ ".."

/-- A name that a file in the working directory can have: a single step that is short enough. -/
structure IsFileName (name : String) : Prop extends IsBareName name where
  short : byteCount name.toList ≤ longestStep

instance (name : String) : Decidable (IsFileName name) :=
  decidable_of_iff (('/' ∉ name.toList ∧ '\x00' ∉ name.toList) ∧ (name ≠ "" ∧ name ≠ "." ∧
      name ≠ "..") ∧ byteCount name.toList ≤ longestStep)
    ⟨fun ⟨⟨hslash, hnull⟩, ⟨hfilled, hself, houter⟩, hshort⟩ =>
      ⟨⟨hslash, hnull, hfilled, hself, houter⟩, hshort⟩,
     fun h => ⟨⟨h.slash, h.null⟩, ⟨h.filled, h.self, h.outer⟩, h.short⟩⟩

namespace Directory

variable {d : Directory} {name : String}

/-- In the working directory there are only files. -/
theorem child?_working {node : Node} (h : d.child? .working name = some node) :
    ∃ text, node = .file text := by
  unfold child? at h
  split at h
  · cases h
    exact ⟨_, rfl⟩
  · cases h
  · next heq => cases heq

/-- A step that is not one of the two names of folders leads to its entry, unless it is too long. -/
theorem walk_working (hself : name ≠ ".") (houter : name ≠ "..") :
    d.walk false .working [name] =
      if byteCount name.toList ≤ longestStep then .entry .working name else .tooLong := by
  unfold walk
  simp only [hself, houter, if_false, Folder.isTable, Bool.not_false, Bool.true_and,
    Bool.and_false, Bool.false_eq_true, decide_eq_true_eq]
  by_cases hshort : byteCount name.toList ≤ longestStep
  · rw [if_neg (Nat.not_lt.mpr hshort), if_pos hshort]
    cases hnode : d.child? .working name with
    | none => rfl
    | some node =>
      obtain ⟨text, rfl⟩ := child?_working hnode
      rfl
  · rw [if_pos (Nat.not_le.mp hshort), if_neg hshort]

/-- A bare name is a step in the working directory, unless it is too long. -/
theorem resolve_of_isBareName (h : IsBareName name) :
    d.resolve name =
      if byteCount name.toList ≤ longestStep then .entry .working name else .tooLong := by
  obtain ⟨hslash, hnull, hfilled, hself, houter⟩ := h
  have hsteps : (splitWhere (· == '/') name.toList).filter (fun step => !step.isEmpty) =
      [name.toList] := by
    have hplain : ∀ c ∈ name.toList, (c == '/') = false := by
      intro c hc
      refine beq_false_of_ne ?_
      rintro rfl
      exact hslash hc
    rw [splitWhere_of_forall hplain]
    simp [hfilled]
  have hstart : name.startsWith '/' = false := by
    rw [String.startsWith_char_eq_head?]
    refine beq_false_of_ne fun heq => hslash (List.mem_of_mem_head? heq)
  have hend : name.endsWith '/' = false := by
    rw [String.endsWith_char_eq_getLast?]
    refine beq_false_of_ne fun heq => hslash (List.mem_of_mem_getLast? heq)
  have hcontains : name.toList.contains '\x00' = false := by simpa using hnull
  have hmapped : [name.toList].map String.ofList = [name] := by simp
  unfold resolve
  simp only [hsteps, hstart, hend, hcontains, hmapped, hfilled, if_false, Bool.false_eq_true,
    walk_working hself houter]
  split
  · next hlong =>
    have hbounds : longestStep ≤ longestPath := by decide
    rw [if_neg (by omega)]
  · rfl

/-- A bare name leads to its file, whatever lies in the directory. -/
theorem outletAt_of_isFileName (h : IsFileName name) :
    d.outletAt name = .ok (.file name) := by
  unfold outletAt
  rw [resolve_of_isBareName h.toIsBareName, if_pos h.short]
  dsimp only
  split
  · next heq => cases heq
  · rfl

/-- Nothing can be written under a name that is too long. -/
theorem short_of_write (h : IsBareName name) {text : String} {v : Directory}
    (hwrite : d.write name text = .ok v) : byteCount name.toList ≤ longestStep := by
  by_contra hlong
  obtain ⟨outlet, houtlet, _⟩ := exists_of_bind_ok hwrite
  rw [outletAt, resolve_of_isBareName h, if_neg hlong] at houtlet
  cases houtlet

end Directory

/-! ## §3 Patterns without folders -/

/-- Whether a name fits a pattern without folders. Names that start with a point only fit a pattern
that does too. -/
def fitsName (pattern name : String) : Bool :=
  (name.toList.head? != some '.' || pattern.toList.head? == some '.') &&
    Pattern.admits (.ofChars pattern.toList) name.toList

namespace Directory

variable {d : Directory}

/-- The names in the working directory, when all files are there. -/
theorem names_working (hbare : ∀ f ∈ d.files, '/' ∉ f.1.toList) :
    d.names .working = d.files.map (·.1) := by
  unfold names
  dsimp only
  rw [List.filterMap_eq_map_iff_forall_eq_some.mpr, List.nil_append]
  · exact List.filter_eq_self.mpr fun name _ => rfl
  · intro f hf
    rw [cutLast?_eq_none.mpr (hbare f hf)]
    exact if_pos rfl

theorem folderAt?_point (d : Directory) : d.folderAt? "." = some .working := by
  have hstart : ".".startsWith '/' = false := by
    rw [String.startsWith_char_eq_head?]
    rfl
  have hwalk : ∀ closed, d.walk closed .working ["."] = .folder .working := by
    intro closed
    unfold walk
    rw [if_pos rfl]
    unfold walk
    rfl
  have hcontains : ".".toList.contains '\x00' = false := by decide
  have hshort : ¬ longestPath < byteCount ".".toList := by decide
  have hsteps : ((splitWhere (· == '/') ".".toList).filter fun step => !step.isEmpty).map
      String.ofList = ["."] := by decide
  unfold folderAt? resolve
  simp only [hstart, hcontains, hsteps, Bool.false_eq_true, if_false, if_neg hshort, hwalk]
  rfl

/-- The names that a pattern without folders finds. -/
theorem search_of_bare {pattern : String} (hslash : '/' ∉ pattern.toList)
    (hpattern : isPattern pattern.toList = true) (hbare : ∀ f ∈ d.files, '/' ∉ f.1.toList)
    (depth : Nat) :
    d.search (depth + 1) false pattern.toList =
      .ok (((d.files.map (·.1)).filter (fitsName pattern)).map String.toList) := by
  have hsplit : splitPath pattern.toList = ([], pattern.toList) := by
    rw [splitPath, cutLast?_eq_none.mpr hslash]
  have hnames : d.namesMatching false .working pattern.toList =
      ((d.files.map (·.1)).filter (fitsName pattern)).map String.toList := by
    unfold namesMatching
    simp only [Bool.not_false, Bool.true_or, List.filter_true]
    rw [names_working hbare, List.filter_map]
    rfl
  have hsteps : d.stepsMatching false pattern.toList [] =
      .ok (((d.files.map (·.1)).filter (fitsName pattern)).map String.toList) := by
    have hfolder : d.folderAt? (String.ofList ['.']) = some .working := folderAt?_point d
    have hjoin : joinPath [] = id := rfl
    unfold stepsMatching
    dsimp only [List.isEmpty_nil]
    rw [if_neg (by decide), if_pos rfl, hfolder]
    dsimp only
    rw [hnames, hjoin, List.map_id]
  unfold search
  rw [hpattern, hsplit]
  -- there is no folder in front of the pattern to be searched for
  have hfront : isPattern [] = false := rfl
  simp only [hfront, hpattern, Bool.not_true, Bool.false_eq_true, if_false, if_true]
  show (List.flatten <$> List.mapM (d.stepsMatching false pattern.toList) [[]] : Except Fault _) = _
  rw [List.mapM_cons, hsteps]
  simp

/-- Paths are found in order. -/
theorem pairwise_pathsMatching {pattern : String} {found : List String}
    (h : d.pathsMatching pattern = .ok found) : found.Pairwise (· ≤ ·) := by
  unfold pathsMatching at h
  cases hsearch : d.search deepestSearch false pattern.toList with
  | error f =>
    rw [hsearch] at h
    cases h
  | ok paths =>
    rw [hsearch] at h
    obtain rfl := Except.ok.inj h
    have htrans : ∀ a b c : String, decide (a ≤ b) = true → decide (b ≤ c) = true →
        decide (a ≤ c) = true := fun a b c hab hbc =>
      decide_eq_true (String.le_trans (of_decide_eq_true hab) (of_decide_eq_true hbc))
    have htotal : ∀ a b : String, (decide (a ≤ b) || decide (b ≤ a)) = true := fun a b => by
      simpa using String.le_total a b
    exact (List.pairwise_mergeSort htrans htotal (paths.map String.ofList)).imp of_decide_eq_true

/-- The paths that a pattern without folders finds: the names that fit it, in order. -/
theorem pathsMatching_of_bare {pattern : String} (hslash : '/' ∉ pattern.toList)
    (hpattern : isPattern pattern.toList = true) (hbare : ∀ f ∈ d.files, '/' ∉ f.1.toList) :
    d.pathsMatching pattern =
      .ok (((d.files.map (·.1)).filter (fitsName pattern)).mergeSort fun a b => decide (a ≤ b)) := by
  have hnames : ∀ names : List String, (names.map String.toList).map String.ofList = names := by
    intro names
    rw [List.map_map]
    exact List.map_id'' (fun _ => String.ofList_toList) names
  unfold pathsMatching deepestSearch
  rw [search_of_bare hslash hpattern hbare]
  exact congrArg (fun found => Except.ok (found.mergeSort fun a b => decide (a ≤ b))) (hnames _)

end Directory

end BrokerLoad
