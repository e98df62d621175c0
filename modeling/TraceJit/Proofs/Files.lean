import Mathlib.Tactic.MkIffOfInductiveProp
import TraceJit.Files

/-!
A file that is written is found again. A path is followed through what is there, and a file is kept
under the spelling of its place; so the place of a path has to survive its spelling, and putting the
file there must leave the directories on the way as they were.
-/

namespace TraceJit.Files

/-! ### Spelling -/

/-- The steps down to a place are names, which have no strokes. -/
def Spelt (ss : List String) : Prop := ∀ s ∈ ss, isName s = true ∧ '/' ∉ s.toList

theorem cutStrokes_eq (cs : List Char) : cutStrokes cs = cs.splitOn '/' := by
  induction cs with
  | nil => rfl
  | cons c cs ih =>
      rw [cutStrokes, ih, List.splitOn_cons_eq_if_modifyHead]
      by_cases hStroke : c = '/'
      · simp [hStroke]
      · cases hParts : cs.splitOn '/' with
        | nil => exact absurd hParts (List.splitOn_ne_nil _ _)
        | cons part parts => simp [hStroke]

theorem stroke_not_mem_cutStrokes {cs part : List Char} (h : part ∈ cutStrokes cs) :
    '/' ∉ part := by
  induction cs generalizing part with
  | nil =>
      obtain rfl := List.mem_singleton.mp h
      exact List.not_mem_nil
  | cons c cs ih =>
      rw [cutStrokes] at h
      split at h
      next =>
          rcases List.mem_cons.mp h with rfl | hLater
          · exact List.not_mem_nil
          · exact ih hLater
      next hOther =>
          rcases List.mem_cons.mp h with rfl | hLater
          · rw [List.mem_cons, not_or]
            refine ⟨Ne.symm hOther, ?_⟩
            cases hParts : cutStrokes cs with
            | nil => exact List.not_mem_nil
            | cons first rest => exact ih (by rw [hParts]; exact List.mem_cons_self)
          · exact ih (List.mem_of_mem_tail hLater)

theorem stroke_not_mem_segments {path s : String} (h : s ∈ segments path) : '/' ∉ s.toList := by
  obtain ⟨part, hPart, rfl⟩ := List.mem_map.mp h
  rw [String.toList_ofList]
  exact stroke_not_mem_cutStrokes hPart

/-- Steps that are spelt are cut into the same steps. -/
theorem segments_spell {ss : List String} (hSpelt : Spelt ss) (hSome : ss ≠ []) :
    segments (spell ss) = ss := by
  have hCut : (['/'].intercalate (ss.map String.toList)).splitOn '/' = ss.map String.toList := by
    refine List.splitOn_intercalate '/' (List.forall_mem_map.mpr fun s hs => (hSpelt s hs).2) ?_
    exact fun hNone => hSome (List.map_eq_nil_iff.mp hNone)
  rw [segments, spell, String.toList_intercalate, cutStrokes_eq,
    show "/".toList = ['/'] from rfl, hCut, List.map_map]
  exact (List.map_congr_left fun s _ => String.ofList_toList).trans (List.map_id ss)

theorem rooted_spell {ss : List String} (hSpelt : Spelt ss) : rooted (spell ss) = false := by
  cases ss with
  | nil => rfl
  | cons s rest =>
      obtain ⟨hName, hStroke⟩ := hSpelt s List.mem_cons_self
      have hHead : (spell (s :: rest)).toList.head? = s.toList.head? := by
        cases hChars : s.toList with
        | nil =>
            rw [String.toList_eq_nil_iff.mp hChars] at hName
            cases hName
        | cons c cs =>
            cases rest with
            | nil => simp [spell, hChars]
            | cons t rest => simp [spell, String.intercalate_cons_cons, hChars]
      rw [rooted, hHead]
      cases hChars : s.toList with
      | nil => rfl
      | cons c cs =>
          rw [hChars, List.mem_cons, not_or] at hStroke
          simpa using Ne.symm hStroke.1

theorem step_inside {dir ss : List String} {s : String} (hStep : step (.inside dir) s = .inside ss)
    (hStroke : '/' ∉ s.toList) (hSpelt : Spelt dir) : Spelt ss := by
  rw [step] at hStep
  split at hStep
  next hName =>
      obtain rfl := Place.inside.inj hStep
      intro t ht
      rcases List.mem_append.mp ht with hBefore | hLast
      · exact hSpelt t hBefore
      · obtain rfl := List.mem_singleton.mp hLast
        exact ⟨hName, hStroke⟩
  next =>
      split at hStep
      next =>
          split at hStep
          next => cases hStep
          next =>
              obtain rfl := Place.inside.inj hStep
              exact fun t ht => hSpelt t (List.dropLast_subset _ ht)
      next =>
          obtain rfl := Place.inside.inj hStep
          exact hSpelt

/-- What has left the directory stays outside. -/
theorem foldl_step_outside (ss : List String) : ss.foldl step .outside = .outside := by
  induction ss with
  | nil => rfl
  | cons s rest ih => exact ih

theorem spelt_of_foldl_step {segs dir ss : List String}
    (hPlace : segs.foldl step (.inside dir) = .inside ss) (hStrokes : ∀ s ∈ segs, '/' ∉ s.toList)
    (hSpelt : Spelt dir) : Spelt ss := by
  induction segs generalizing dir with
  | nil =>
      obtain rfl := Place.inside.inj hPlace
      exact hSpelt
  | cons s rest ih =>
      rw [List.foldl_cons] at hPlace
      rw [List.forall_mem_cons] at hStrokes
      cases hStep : step (.inside dir) s with
      | outside =>
          rw [hStep, foldl_step_outside] at hPlace
          cases hPlace
      | inside next =>
          rw [hStep] at hPlace
          exact ih hPlace hStrokes.2 (step_inside hStep hStrokes.1 hSpelt)

/-- A place inside of the directory is spelt without dots and empty steps. -/
theorem spelt_of_place {path : String} {ss : List String} (h : place path = .inside ss) :
    Spelt ss := by
  unfold place at h
  split at h
  next => cases h
  next =>
      exact spelt_of_foldl_step h (fun s hs => stroke_not_mem_segments hs)
        fun s hs => absurd hs List.not_mem_nil

/-- Such a spelling leads to where it says. -/
theorem foldl_step_of_spelt {ss dir : List String} (hSpelt : Spelt ss) :
    ss.foldl step (.inside dir) = .inside (dir ++ ss) := by
  induction ss generalizing dir with
  | nil => rw [List.append_nil]; rfl
  | cons s rest ih =>
      rw [Spelt, List.forall_mem_cons] at hSpelt
      rw [List.foldl_cons, step, if_pos hSpelt.1.1, ih hSpelt.2, List.append_assoc]
      rfl

/-- The spelling of a place leads to it. -/
theorem place_spell {ss : List String} (hSpelt : Spelt ss) : place (spell ss) = .inside ss := by
  rw [place, rooted_spell hSpelt]
  cases ss with
  | nil => rfl
  | cons s rest =>
      rw [segments_spell hSpelt (List.cons_ne_nil s rest)]
      exact foldl_step_of_spelt hSpelt

/-- A file is kept under a name that leads to where its path leads. -/
theorem place_nameOf (path : String) : place (nameOf path) = place path := by
  unfold nameOf
  cases hPlace : place path with
  | inside ss => exact place_spell (spelt_of_place hPlace)
  | outside => exact hPlace

theorem steps?_nameOf (path : String) : steps? (nameOf path) = steps? path := by
  rw [steps?, place_nameOf, steps?]

/-- Two spellings of one place have one name. -/
theorem nameOf_eq_of_steps? {path other : String} {ss : List String} (h : steps? path = some ss)
    (hSame : steps? other = some ss) : nameOf other = nameOf path := by
  have hPlace {p : String} (hSteps : steps? p = some ss) : nameOf p = spell ss := by
    unfold steps? at hSteps
    split at hSteps
    next hInside =>
        obtain rfl := Option.some.inj hSteps
        rw [nameOf, hInside]
    next => cases hSteps
  rw [hPlace h, hPlace hSame]

/-! ### Entries -/

section Replace

variable {f : Files} {path : String} {content : List UInt8} {ss : List String}

/-- What is put at a path is the entry there. -/
theorem found?_replace (hSteps : steps? path = some ss) (hSome : ss ≠ []) :
    (f.replace path content).found? ss = some (.file content) := by
  have hOthers : (f.files.filter fun e => nameOf e.1 != nameOf path).find?
      (fun e => steps? e.1 == some ss) = none := by
    rw [List.find?_eq_none]
    intro e he
    rw [List.mem_filter, bne_iff_ne] at he
    rw [beq_iff_eq]
    exact fun hSame => he.2 (nameOf_eq_of_steps? hSteps hSame)
  have hNew : [(nameOf path, content)].find? (fun e => steps? e.1 == some ss) =
      some (nameOf path, content) :=
    List.find?_cons_of_pos (by rw [steps?_nameOf, hSteps, beq_self_eq_true])
  rw [found?, if_neg (by simpa using hSome), replace]
  simp only [List.find?_append, hOthers, Option.none_or, hNew]

/-- A directory stays one when a file is put in another place. -/
theorem found?_replace_directory (hDirectory : f.found? ss = some .directory)
    (hOther : steps? path ≠ some ss) :
    (f.replace path content).found? ss = some .directory := by
  rw [found?] at hDirectory ⊢
  split at hDirectory
  next hNone => rw [if_pos hNone]
  next hSome =>
      rw [if_neg hSome]
      cases hFound : f.files.find? fun e => steps? e.1 == some ss with
      | some e =>
          rw [hFound] at hDirectory
          cases hDirectory
      | none =>
          rw [hFound] at hDirectory
          have hStill : (f.replace path content).files.find? (fun e => steps? e.1 == some ss) =
              none := by
            rw [List.find?_eq_none]
            intro e he
            rcases List.mem_append.mp he with hOld | hNew
            · exact List.find?_eq_none.mp hFound e (List.mem_filter.mp hOld).1
            · obtain rfl := List.mem_singleton.mp hNew
              rwa [steps?_nameOf, beq_iff_eq]
          rw [hStill]
          dsimp only at hDirectory ⊢
          split at hDirectory
          next hLeads =>
              rw [if_pos]
              rw [Bool.or_eq_true] at hLeads ⊢
              refine hLeads.imp id fun hFile => ?_
              obtain ⟨e, he, hTo⟩ := List.any_eq_true.mp hFile
              -- a file that is taken away leaves its place to the new one
              by_cases hSame : nameOf e.1 = nameOf path
              · refine List.any_eq_true.mpr ⟨(nameOf path, content), by simp [replace], ?_⟩
                rwa [← hSame, steps?_nameOf]
              · exact List.any_eq_true.mpr ⟨e, by simp [replace, he, hSame], hTo⟩
          next => cases hDirectory

end Replace

/-! ### Walks -/

section Walk

variable {f : Files} {dir rest : List String} {s : String}

/-- A step that is no name goes where its spelling says. -/
theorem walk_cons_of_not_name (f : Files) (dir rest : List String) (hName : ¬isName s) :
    f.walk dir (s :: rest) =
      match step (.inside dir) s with
      | .inside here => f.walk here rest
      | .outside => .outside := by
  rw [walk, step, if_neg hName, if_neg hName]
  by_cases hUp : s = ".."
  · rw [if_pos hUp, if_pos hUp]
    cases dir.isEmpty <;> rfl
  · rw [if_neg hUp, if_neg hUp]

/-- A name that is too long leads nowhere. -/
theorem walk_cons_of_tooLong (hName : isName s) (hLong : maxNameBytes < s.utf8ByteSize) :
    f.walk dir (s :: rest) = .failed .tooLong := by
  rw [walk, if_pos hName, if_pos hLong]

/-- A name leads down where a directory is. -/
theorem walk_cons_of_directory (hName : isName s) (hShort : ¬maxNameBytes < s.utf8ByteSize)
    (hDirectory : f.found? (dir ++ [s]) = some .directory) :
    f.walk dir (s :: rest) = f.walk (dir ++ [s]) rest := by
  rw [walk, if_pos hName, if_neg hShort, hDirectory]

/-- Where no directory is, a name leads to something only if it is the last, and never out. -/
theorem walk_cons_cases (rest : List String) (hName : isName s)
    (hShort : ¬maxNameBytes < s.utf8ByteSize) (hOther : f.found? (dir ++ [s]) ≠ some .directory) :
    rest = [] ∧ f.walk dir (s :: rest) ≠ .outside ∨
      ∃ e, f.walk dir (s :: rest) = .failed e := by
  rw [walk, if_pos hName, if_neg hShort]
  cases hFound : f.found? (dir ++ [s]) with
  | none => cases rest <;> simp
  | some found =>
      cases found with
      | directory => exact absurd hFound hOther
      | file => cases rest <;> simp
      | nothing => cases rest <;> simp

end Walk

/-- A path that ends where a file is, or could be, ends at the steps that it spells; and it leads
there wherever the directories are the same and the file stands there. -/
theorem walk_of_found? {f : Files} {dir segs : List String}
    (hEnd : f.walk dir segs = .vacant ∨
      ∃ found, f.walk dir segs = .entry found ∧ found ≠ .directory) :
    ∃ ss, segs.foldl step (.inside dir) = .inside ss ∧ ss ≠ [] ∧ f.found? ss ≠ some .directory ∧
      ∀ (g : Files) content, g.found? ss = some (.file content) →
        (∀ steps, f.found? steps = some .directory → g.found? steps = some .directory) →
        g.walk dir segs = .entry (.file content) := by
  induction segs generalizing dir with
  | nil => simp [walk] at hEnd
  | cons s rest ih =>
      rw [List.foldl_cons]
      by_cases hName : isName s
      · have hShort : ¬maxNameBytes < s.utf8ByteSize := by
          intro hLong
          simp [walk_cons_of_tooLong hName hLong] at hEnd
        rw [step, if_pos hName]
        by_cases hDirectory : f.found? (dir ++ [s]) = some .directory
        · rw [walk_cons_of_directory hName hShort hDirectory] at hEnd
          obtain ⟨ss, hPlace, hSome, hFree, hWalk⟩ := ih hEnd
          refine ⟨ss, hPlace, hSome, hFree, fun g content hFile hKept => ?_⟩
          rw [walk_cons_of_directory hName hShort (hKept _ hDirectory)]
          exact hWalk g content hFile hKept
        · -- only the last step may lead to something else than a directory
          obtain ⟨rfl, -⟩ | ⟨e, hFailed⟩ := walk_cons_cases rest hName hShort hDirectory
          · refine ⟨dir ++ [s], rfl, by simp, hDirectory, fun g content hFile _ => ?_⟩
            rw [walk, if_pos hName, if_neg hShort, hFile]
            rfl
          · simp [hFailed] at hEnd
      · rw [walk_cons_of_not_name f dir rest hName] at hEnd
        cases hStep : step (.inside dir) s with
        | outside => simp [hStep] at hEnd
        | inside here =>
            simp only [hStep] at hEnd
            obtain ⟨ss, hPlace, hSome, hFree, hWalk⟩ := ih hEnd
            refine ⟨ss, hPlace, hSome, hFree, fun g content hFile hKept => ?_⟩
            rw [walk_cons_of_not_name g dir rest hName, hStep]
            exact hWalk g content hFile hKept

/-- A path that leads out does so wherever the directories are the same. -/
theorem walk_outside {f g : Files} {dir segs : List String} (hEnd : f.walk dir segs = .outside)
    (hKept : ∀ steps, f.found? steps = some .directory → g.found? steps = some .directory) :
    segs.foldl step (.inside dir) = .outside ∧ g.walk dir segs = .outside := by
  induction segs generalizing dir with
  | nil => cases hEnd
  | cons s rest ih =>
      rw [List.foldl_cons]
      by_cases hName : isName s
      · have hShort : ¬maxNameBytes < s.utf8ByteSize := by
          intro hLong
          simp [walk_cons_of_tooLong hName hLong] at hEnd
        have hDirectory : f.found? (dir ++ [s]) = some .directory := by
          refine Decidable.byContradiction fun hOther => ?_
          obtain ⟨-, hInside⟩ | ⟨e, hFailed⟩ := walk_cons_cases rest hName hShort hOther
          · exact hInside hEnd
          · simp [hFailed] at hEnd
        rw [walk_cons_of_directory hName hShort hDirectory] at hEnd
        rw [step, if_pos hName, walk_cons_of_directory hName hShort (hKept _ hDirectory)]
        exact ih hEnd
      · rw [walk_cons_of_not_name f dir rest hName] at hEnd
        rw [walk_cons_of_not_name g dir rest hName]
        cases hStep : step (.inside dir) s with
        | outside => exact ⟨foldl_step_outside rest, rfl⟩
        | inside here =>
            simp only [hStep] at hEnd
            exact ih hEnd

/-! ### Writing and finding -/

/-- Nothing is in the way of a file at a path: the directories that it is in can be made, and then
the file can. -/
@[mk_iff]
structure Writable (f : Files) (path : String) : Prop where
  parents : (f.makeParents path).1 = none
  file : (f.makeParents path).2.writeError? path = none

section Find

variable {f : Files} {path : String} {content : List UInt8}

/-- What is stored under a name is found under it. -/
theorem lookup_replace (hName : nameOf path = path) :
    (f.replace path content).files.lookup path = some content := by
  have hOthers : (f.files.filter fun e => nameOf e.1 != nameOf path).lookup path = none := by
    rw [List.lookup_eq_none_iff]
    intro e he
    rw [List.mem_filter, bne_iff_ne] at he
    rw [bne_iff_ne]
    rintro rfl
    exact he.2 rfl
  rw [replace, List.lookup_append, hOthers, hName, Option.none_or]
  simp

/-- The same for what lies outside of the directory. -/
theorem findOutside_replace (hOutside : place path = .outside) :
    (f.replace path content).findOutside path = .file content := by
  have hName : nameOf path = path := by rw [nameOf, hOutside]
  rw [findOutside, lookup_replace hName]

/-- What is put at a path that can be written is found there. -/
theorem find_replace (hWritable : f.writeError? path = none) :
    (f.replace path content).find path = .file content := by
  unfold writeError? at hWritable
  unfold find reach
  cases hSpelling : misspelt? path with
  | some e => simp [hSpelling] at hWritable
  | none =>
      simp only [hSpelling] at hWritable ⊢
      cases hRooted : rooted path with
      | true => exact findOutside_replace (by rw [place, hRooted]; rfl)
      | false =>
          have hPlace : place path = (segments path).foldl step (.inside []) := by
            rw [place, hRooted]
            rfl
          have hReach : f.reach path = f.walk [] (segments path) := by
            rw [reach, hSpelling, hRooted]
            rfl
          split at hWritable
          next => simp at hWritable
          next =>
              rw [hReach] at hWritable
              have hInside (hEnd : f.walk [] (segments path) = .vacant ∨
                  ∃ found, f.walk [] (segments path) = .entry found ∧ found ≠ .directory) :
                  (f.replace path content).walk [] (segments path) = .entry (.file content) := by
                obtain ⟨ss, hEnds, hSome, hFree, hWalk⟩ := walk_of_found? hEnd
                have hSteps : steps? path = some ss := by rw [steps?, hPlace, hEnds]
                refine hWalk _ content (found?_replace hSteps hSome) fun steps hDirectory => ?_
                refine found?_replace_directory hDirectory fun hSame => ?_
                obtain rfl := Option.some.inj (hSteps.symm.trans hSame)
                exact hFree hDirectory
              cases hWalk : f.walk [] (segments path) with
              | vacant => simp [hInside (.inl hWalk)]
              | entry found =>
                  rw [hWalk] at hWritable
                  have hFile : found ≠ .directory := by
                    rintro rfl
                    cases hWritable
                  simp [hInside (.inr ⟨found, hWalk, hFile⟩)]
              | outside =>
                  have hOut : place path = .outside :=
                    hPlace.trans (walk_outside (g := f) hWalk fun _ h => h).1
                  have hNowhere : steps? path = none := by rw [steps?, hOut]
                  have hStill := (walk_outside (g := f.replace path content) hWalk
                    fun steps h => found?_replace_directory h (by simp [hNowhere])).2
                  simp [hStill, findOutside_replace hOut]
              | failed e =>
                  rw [hWalk] at hWritable
                  cases hWritable

end Find

end TraceJit.Files
