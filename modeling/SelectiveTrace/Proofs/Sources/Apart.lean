import SelectiveTrace.Proofs.Tracer.Progress

/-! Files that are written. What is written to a file is read from it, and it leaves what is read from
another file, which lies apart, as it was. -/
namespace SelectiveTrace

namespace Disk

def spellStep (names : List String) : Path.Component → List String
  | .root => []
  | .here => names
  | .up => names.dropLast
  | .name s => names ++ [s]

def placeOf (d : Disk) (path : Path) : List String :=
  (d.absolute path).components.foldl spellStep []

theorem walkStep_eq {d : Disk} {names next : List String} {c : Path.Component}
    (h : d.walkStep names c = .ok next) : next = spellStep names c := by
  have henter : ∀ dest, walkStep.enter d names dest = .ok next → next = dest := by
    intro dest he
    unfold walkStep.enter at he
    split at he <;> cases he
    rfl
  cases c with
  | root | here =>
    cases h
    rfl
  | up | name s => exact henter _ h

theorem walk_eq {d : Disk} {cs : List Path.Component} {start names : List String}
    (h : cs.foldlM d.walkStep start = .ok names) : names = cs.foldl spellStep start := by
  induction cs generalizing start with
  | nil =>
    cases h
    rfl
  | cons c cs ih =>
    rw [List.foldlM_cons] at h
    cases hs : d.walkStep start c with
    | error e => simp [hs, bind, Except.bind] at h
    | ok next =>
      rw [hs] at h
      rw [List.foldl_cons, ← walkStep_eq hs]
      exact ih h

def holdsFile (d : Disk) (names : List String) : Bool :=
  match d.item? names with
  | some (.file _) => true
  | _ => false

theorem toOption_locate (d : Disk) (path : Path) :
    (d.locate path).toOption =
      if path.text.isEmpty then none
      else ((d.absolute path).components.foldlM d.walkStep []).toOption.filter fun names =>
        !((path.text.endsWith "/" || path.text.endsWith "/.") && d.holdsFile names) := by
  unfold locate
  cases path.text.isEmpty with
  | true => rfl
  | false =>
    simp only [Bool.false_eq_true, if_false]
    cases (d.absolute path).components.foldlM d.walkStep [] with
    | error e => rfl
    | ok names =>
      unfold holdsFile
      cases path.text.endsWith "/" || path.text.endsWith "/." with
      | false => rfl
      | true =>
        cases hi : d.item? names with
        | none => simp [hi, Option.filter_some, bind, Except.bind, pure, Except.pure, Except.toOption]
        | some e =>
          cases e <;> simp [hi, Option.filter_some, bind, Except.bind, pure, Except.pure,
            Except.toOption, throw, throwThe, MonadExceptOf.throw]

/-- A path that leads anywhere leads to the place it is spelled to. -/
theorem locate_eq {d : Disk} {path : Path} {names : List String} (h : d.locate path = .ok names) :
    names = d.placeOf path := by
  have hl := toOption_locate d path
  rw [h] at hl
  split at hl
  · cases hl
  · cases hw : (d.absolute path).components.foldlM d.walkStep [] with
    | error e => simp [hw, Except.toOption] at hl
    | ok found =>
      rw [hw] at hl
      have hfound : names = found := by
        have hs := Option.filter_eq_some_iff.mp hl.symm
        have hsame : some found = some names := hs.1
        cases hsame
        rfl
      rw [hfound]
      exact walk_eq hw

section
variable {d d' : Disk} {place : List String}

structure DiffersAt (d d' : Disk) (place : List String) : Prop where
  current : d'.current = d.current
  directories : ∀ names, d'.item? names = some .directory ↔ d.item? names = some .directory
  elsewhere : ∀ names, names ≠ place → d'.item? names = d.item? names

theorem DiffersAt.walkStep (h : DiffersAt d d' place) (names : List String) (c : Path.Component) :
    (d'.walkStep names c).toOption = (d.walkStep names c).toOption := by
  have henter : ∀ dest,
      (walkStep.enter d' names dest).toOption = (walkStep.enter d names dest).toOption := by
    intro dest
    have hdir := h.directories names
    unfold walkStep.enter
    split <;> split <;> simp_all [Except.toOption]
  cases c with
  | root | here => rfl
  | up | name s => exact henter _

theorem DiffersAt.walk (h : DiffersAt d d' place) (cs : List Path.Component) (start : List String) :
    (cs.foldlM d'.walkStep start).toOption = (cs.foldlM d.walkStep start).toOption := by
  induction cs generalizing start with
  | nil => rfl
  | cons c cs ih =>
    have hs := h.walkStep start c
    rw [List.foldlM_cons, List.foldlM_cons]
    cases hd : d.walkStep start c with
    | error e =>
      cases hd' : d'.walkStep start c with
      | error e' => rfl
      | ok next => simp [hd, hd', Except.toOption] at hs
    | ok next =>
      cases hd' : d'.walkStep start c with
      | error e' => simp [hd, hd', Except.toOption] at hs
      | ok next' =>
        rw [hd, hd'] at hs
        cases hs
        exact ih next

/-- A file at another place is read as before. -/
theorem DiffersAt.read (h : DiffersAt d d' place) {file : Path} (apart : d.placeOf file ≠ place) :
    (d'.read file).toOption = (d.read file).toOption := by
  have habs : d'.absolute file = d.absolute file := by
    unfold absolute
    rw [h.current]
  have hlocate : (d'.locate file).toOption = (d.locate file).toOption := by
    rw [toOption_locate, toOption_locate, habs, h.walk]
    split
    · rfl
    · cases hw : (d.absolute file).components.foldlM d.walkStep [] with
      | error e => rfl
      | ok names =>
        have hplace : names ≠ place := by
          rw [walk_eq hw]
          exact apart
        unfold holdsFile
        simp only [Except.toOption, Option.filter_some, h.elsewhere names hplace]
  unfold Disk.read
  cases hd : d.locate file with
  | error e =>
    cases hd' : d'.locate file with
    | error e' => rfl
    | ok names => simp [hd, hd', Except.toOption] at hlocate
  | ok names =>
    cases hd' : d'.locate file with
    | error e' => simp [hd, hd', Except.toOption] at hlocate
    | ok names' =>
      rw [hd, hd'] at hlocate
      cases hlocate
      have hplace : names ≠ place := by
        rw [locate_eq hd]
        exact apart
      simp only [bind, Except.bind, h.elsewhere names hplace]

end

theorem differsAt_insert {d : Disk} {names : List String} (contents : ByteArray)
    (h : d.item? names ≠ some .directory) :
    DiffersAt d { d with entries := d.entries.insert names (.file contents) } names := by
  have hne : names ≠ [] := by
    rintro rfl
    exact h rfl
  have hitem : ∀ other, other ≠ names →
      item? { d with entries := d.entries.insert names (.file contents) } other = d.item? other := by
    intro other ho
    unfold item?
    dsimp only
    rw [Table.get?_insert_of_ne _ _ ho]
  refine ⟨rfl, ?_, hitem⟩
  intro other
  by_cases ho : other = names
  · subst ho
    simp [item?, hne] at h ⊢
    exact h
  · rw [hitem other ho]

/-! A file that is written. -/

section
variable {d d' : Disk} {path : Path} {names : List String} {contents : ByteArray}
  {change : ByteArray → ByteArray}

structure Puts (d : Disk) (path : Path) (names : List String) (contents : ByteArray) (d' : Disk) :
    Prop where
  located : d.locate path = .ok names
  free : d.item? names ≠ some .directory
  /-- The path does not ask for a directory. -/
  plain : (path.text.endsWith "/" || path.text.endsWith "/.") = false
  result : d' = { d with entries := d.entries.insert names (.file contents) }

theorem plain_of_locate (h : d.locate path = .ok names) (file : d.holdsFile names = true) :
    (path.text.endsWith "/" || path.text.endsWith "/.") = false := by
  have hl := toOption_locate d path
  rw [h] at hl
  split at hl
  · cases hl
  · have hs := (Option.filter_eq_some_iff.mp hl.symm).2
    rw [file, Bool.and_true, Bool.not_eq_true'] at hs
    exact hs

def held (d : Disk) (path : Path) : ByteArray :=
  (d.read path).toOption.getD .empty

theorem held_of_file (h : d.locate path = .ok names) (hi : d.item? names = some (.file contents)) :
    d.held path = contents := by
  simp [held, read, h, hi, bind, Except.bind, pure, Except.pure, Except.toOption]

theorem held_of_none (h : d.locate path = .ok names) (hi : d.item? names = none) :
    d.held path = .empty := by
  simp [held, read, h, hi, bind, Except.bind, throw, throwThe, MonadExceptOf.throw, Except.toOption]

theorem puts_of_update (h : d.update path change = .ok d') :
    ∃ names, d.Puts path names (change (d.held path)) d' := by
  unfold update at h
  cases hl : d.locate path with
  | error e =>
    rw [hl] at h
    cases h
  | ok names =>
    rw [hl] at h
    simp only [bind, Except.bind, pure, Except.pure, throw, throwThe, MonadExceptOf.throw] at h
    split at h
    · cases h
    next old hi =>
      cases h
      have hplain := plain_of_locate hl (by rw [holdsFile, hi])
      rw [held_of_file hl hi]
      exact ⟨names, hl, by simp [hi], hplain, rfl⟩
    next hi =>
      split at h
      · split at h
        · cases h
        next hslash =>
          split at h
          · cases h
          next hdot =>
            cases h
            rw [held_of_none hl hi]
            exact ⟨names, hl, by simp [hi], by simp [hslash, hdot], rfl⟩
      · cases h
      · cases h

theorem Puts.differsAt (h : d.Puts path names contents d') : DiffersAt d d' names :=
  h.result ▸ differsAt_insert contents h.free

/-- A file that is written is the only one that changes. -/
theorem differsAt_of_update (h : d.update path change = .ok d') :
    DiffersAt d d' (d.placeOf path) := by
  obtain ⟨names, hputs⟩ := puts_of_update h
  rw [← locate_eq hputs.located]
  exact hputs.differsAt

theorem Puts.item? (h : d.Puts path names contents d') :
    d'.item? names = some (.file contents) := by
  have hne : names ≠ [] := by
    rintro rfl
    exact h.free rfl
  rw [h.result, Disk.item?]
  simp [hne]

/-- The path leads to the same place as before. -/
theorem Puts.locate (h : d.Puts path names contents d') : d'.locate path = .ok names := by
  have hdiffers := h.differsAt
  have habs : d'.absolute path = d.absolute path := by
    unfold absolute
    rw [hdiffers.current]
  have hd := toOption_locate d path
  have hd' := toOption_locate d' path
  rw [habs, hdiffers.walk] at hd'
  rw [h.located] at hd
  simp only [h.plain, Bool.false_and, Bool.not_false] at hd hd'
  have hsame : (d'.locate path).toOption = some names := hd'.trans hd.symm
  cases hl : d'.locate path with
  | error e => simp [hl, Except.toOption] at hsame
  | ok found =>
    rw [hl] at hsame
    cases hsame
    rfl

/-- What was made of a file is read. -/
theorem read_of_update (h : d.update path change = .ok d') :
    d'.read path = .ok (change (d.held path)) := by
  obtain ⟨names, hputs⟩ := puts_of_update h
  rw [read, hputs.locate]
  simp only [bind, Except.bind, hputs.item?]
  rfl

theorem read_of_write (h : d.write path contents = .ok d') : d'.read path = .ok contents :=
  read_of_update h

end

end Disk

namespace SourceCache

/-- What is written to one file changes no line of another. -/
theorem readLines_of_differsAt {w w' : Surroundings} {place : List String}
    (h : Disk.DiffersAt w.disk w'.disk place) {file : Path} (apart : w.disk.placeOf file ≠ place) :
    readLines w' file = readLines w file := by
  have hr := h.read apart
  unfold readLines
  cases hd : w.disk.read file <;> cases hd' : w'.disk.read file <;> simp_all [Except.toOption]

end SourceCache

namespace Surroundings

def Apart (w : Surroundings) (path file : Path) : Prop :=
  w.disk.placeOf path ≠ w.disk.placeOf file

instance (w : Surroundings) (path file : Path) : Decidable (w.Apart path file) :=
  inferInstanceAs (Decidable (_ ≠ _))

theorem Apart.congr {w w' : Surroundings} {path file : Path} (h : w.Apart path file)
    (current : w'.disk.current = w.disk.current) : w'.Apart path file := by
  unfold Apart Disk.placeOf Disk.absolute at h ⊢
  rw [current]
  exact h

theorem Apart.write {w w' : Surroundings} {path file : Path} (h : w.Apart path file) {text : String}
    (written : w.write path text = .ok w') :
    SourceCache.readLines w' file = SourceCache.readLines w file := by
  unfold Surroundings.write at written
  cases hd : w.disk.write path text.toUTF8 with
  | error e =>
    rw [hd] at written
    cases written
  | ok d =>
    have hu : w.disk.update path (fun _ => text.toUTF8) = .ok d := hd
    rw [hd] at written
    cases written
    exact SourceCache.readLines_of_differsAt (Disk.differsAt_of_update hu) h.symm

theorem Apart.append {w w' : Surroundings} {path file : Path} (h : w.Apart path file) {text : String}
    (written : w.append path text = .ok w') :
    SourceCache.readLines w' file = SourceCache.readLines w file := by
  unfold Surroundings.append at written
  cases hd : w.disk.append path text.toUTF8 with
  | error e =>
    rw [hd] at written
    cases written
  | ok d =>
    have hu : w.disk.update path (fun old => old ++ text.toUTF8) = .ok d := hd
    rw [hd] at written
    cases written
    exact SourceCache.readLines_of_differsAt (Disk.differsAt_of_update hu) h.symm

theorem write_eq {w w' : Surroundings} {path : Path} {text : String} (h : w.write path text = .ok w') :
    w' = { w with disk := w'.disk } := by
  unfold Surroundings.write at h
  cases hd : w.disk.write path text.toUTF8 with
  | error e =>
    rw [hd] at h
    cases h
  | ok d =>
    rw [hd] at h
    cases h
    rfl

theorem append_eq {w w' : Surroundings} {path : Path} {text : String}
    (h : w.append path text = .ok w') : w' = { w with disk := w'.disk } := by
  unfold Surroundings.append at h
  cases hd : w.disk.append path text.toUTF8 with
  | error e =>
    rw [hd] at h
    cases h
  | ok d =>
    rw [hd] at h
    cases h
    rfl

end Surroundings

namespace Sink

def target? (s : Sink) (w : Surroundings) : Option Path :=
  match s with
  | .standardError => w.standardError
  | .file path _ => some path
  | .stream .. | .lines _ => none

def Spares (s : Sink) (w : Surroundings) (file : Path) : Prop :=
  ∀ path, s.target? w = some path → w.Apart path file

theorem spares_writeFile {w : Surroundings} {path file : Path} (h : w.Apart path file)
    (overwrite : Bool) (text : String) :
    SourceCache.readLines (writeFile w path overwrite text) file = SourceCache.readLines w file := by
  unfold writeFile
  cases overwrite with
  | true =>
    cases hw : w.write path text with
    | ok w' => simpa [hw] using h.write hw
    | error e => simp
  | false =>
    cases hw : w.append path text with
    | ok w' => simpa [hw] using h.append hw
    | error e => simp

theorem readLines_writeLine {s : Sink} {w : Surroundings} {file : Path} (h : s.Spares w file)
    (line : String) :
    SourceCache.readLines (s.writeLine line w).2 file = SourceCache.readLines w file := by
  cases s with
  | standardError =>
    cases hs : w.standardError with
    | none => simp [writeLine, hs]
    | some path => simpa [writeLine, hs] using spares_writeFile (h path hs) false _
  | file path overwrite => exact spares_writeFile (h path rfl) overwrite _
  | stream written broken => rfl
  | lines written => rfl

theorem writeFile_eq (w : Surroundings) (path : Path) (overwrite : Bool) (text : String) :
    writeFile w path overwrite text =
      { w with disk := (writeFile w path overwrite text).disk } := by
  unfold writeFile
  cases overwrite with
  | true =>
    cases hw : w.write path text with
    | ok w' => simpa [hw] using Surroundings.write_eq hw
    | error e => simp
  | false =>
    cases hw : w.append path text with
    | ok w' => simpa [hw] using Surroundings.append_eq hw
    | error e => simp

/-- Writing lines changes nothing around but the disk. -/
theorem writeLine_eq (s : Sink) (line : String) (w : Surroundings) :
    (s.writeLine line w).2 = { w with disk := (s.writeLine line w).2.disk } := by
  cases s with
  | standardError =>
    simp only [writeLine]
    split
    · exact writeFile_eq w _ false _
    · rfl
  | file path overwrite => exact writeFile_eq w path overwrite _
  | stream written broken => rfl
  | lines written => rfl

theorem target?_writeLine (s : Sink) (line : String) (w : Surroundings) :
    (s.writeLine line w).1.target? (s.writeLine line w).2 = s.target? w := by
  rw [writeLine_eq]
  cases s with
  | standardError =>
    have hs : (writeLine .standardError line w).1 = .standardError := by
      unfold writeLine
      cases w.standardError <;> rfl
    rw [hs]
    rfl
  | file path overwrite => rfl
  | stream written broken => cases broken <;> rfl
  | lines written => rfl

theorem Spares.writeLine {s : Sink} {w : Surroundings} {file : Path} (h : s.Spares w file)
    (line : String) : (s.writeLine line w).1.Spares (s.writeLine line w).2 file := by
  intro path hp
  rw [target?_writeLine] at hp
  exact (h path hp).congr (current_writeLine s line w)

/-- Lines that go elsewhere leave the lines of a file as they are. -/
theorem Spares.writeLines {s : Sink} {w : Surroundings} {file : Path} (h : s.Spares w file)
    (lines : List String) :
    SourceCache.readLines (s.writeLines w lines).2 file = SourceCache.readLines w file ∧
      (s.writeLines w lines).1.Spares (s.writeLines w lines).2 file := by
  induction lines generalizing s w with
  | nil => exact ⟨rfl, h⟩
  | cons line lines ih =>
    obtain ⟨hread, hspares⟩ := ih (h.writeLine line)
    exact ⟨hread.trans (readLines_writeLine h line), hspares⟩

theorem writeLines_eq (s : Sink) (w : Surroundings) (lines : List String) :
    (s.writeLines w lines).2 = { w with disk := (s.writeLines w lines).2.disk } := by
  induction lines generalizing s w with
  | nil => rfl
  | cons line lines ih =>
    unfold writeLines
    rw [ih, writeLine_eq]

end Sink
end SelectiveTrace
