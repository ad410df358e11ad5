import RehashChart.Proofs.Run.Replacing
import RehashChart.Proofs.Run.Showing

/-! # Running again

A run sets a few places of the disk to contents that do not depend on what was there. A second run
loads the same table, finds the same ways open, and sets the same places to the same contents.
-/

namespace RehashChart

open Files (Disk Entry Failure Location)
open Files.Disk (AgreeOff SameTree SameRoutes)

namespace Machine

/-! ## Places that are set -/

/-- For each place, what it is set to, if it is set: an entry, or no entry at all. -/
abbrev Changes := Location → Option (Option Entry)

def noChanges : Changes := fun _ => none

def Changes.set (changes : Changes) (place : Location) (content : Option Entry) : Changes :=
  fun l => if l = place then some content else changes l

variable {changes changes' : Changes} {a b c machine : Machine} {place : Location}

@[simp] theorem Changes.set_place (changes : Changes) (place : Location) (content : Option Entry) :
    changes.set place content place = some content :=
  if_pos rfl

theorem Changes.set_of_ne (changes : Changes) {l : Location} (content : Option Entry)
    (h : l ≠ place) : changes.set place content l = changes l :=
  if_neg h

theorem Changes.set_eq_none_iff {l : Location} {content : Option Entry} :
    changes.set place content l = none ↔ l ≠ place ∧ changes l = none := by
  by_cases h : l = place <;> simp [set, h]

theorem openLog_withFile_iff {bytes : ByteArray} {l : Location} :
    (machine.withFile place bytes).openLog = some l ↔ machine.openLog = some l ∧ l ≠ place := by
  refine ⟨openLog_withFile, fun h => ?_⟩
  obtain ⟨hopen, hne⟩ := h
  cases hlogger : machine.logger with
  | none => simp [openLog, hlogger] at hopen
  | some logger =>
      cases hfile : logger.file with
      | none => simp [openLog, hlogger, hfile] at hopen
      | some file =>
          simp only [openLog, hlogger, hfile, Option.bind_eq_bind, Option.bind_some] at hopen
          have hlocation : file.location = l := by
            split at hopen
            · exact Option.some.inj hopen
            · cases hopen
          have hother : file.location ≠ place := hlocation ▸ hne
          simpa [openLog, withFile, hlogger, Logger.hide, hfile, hother] using hopen

/-- The second machine is the first one after some places have been set, and some lines told. No
directory is involved, and a log file whose place has been set is not to be seen any more. -/
structure Sets (changes : Changes) (a b : Machine) : Prop where
  environment : b.environment = a.environment
  viewer : b.viewer = a.viewer
  here : b.disk.here = a.disk.here
  closed : b.disk.sealed = a.disk.sealed
  room : b.disk.isFull = a.disk.isFull
  openLog : ∀ l, b.openLog = some l ↔ a.openLog = some l ∧ changes l = none
  entries : ∀ l, b.openLog ≠ some l → b.disk.at? l = (changes l).getD (a.disk.at? l)
  tree : ∀ l, changes l = none → b.disk.checkDirectory l = a.disk.checkDirectory l
  files : ∀ l content, changes l = some content →
    a.disk.at? l ≠ some .directory ∧ content ≠ some .directory

theorem Told.sets (h : Told a b) : Sets noChanges a b where
  environment := h.environment
  viewer := h.viewer
  here := h.disk.here
  closed := h.disk.closed
  room := h.tree.room
  openLog l := by simp [noChanges, h.openLog]
  entries l hl := h.disk.entries l (h.openLog ▸ hl)
  tree l _ := h.tree.check l
  files l content hl := by simp [noChanges] at hl

namespace Sets

/-- A place that is set is as it has been set; the log does not go there. -/
theorem at?_of_some (h : Sets changes a b) {l : Location} {content : Option Entry}
    (hl : changes l = some content) : b.disk.at? l = content := by
  have hlog : b.openLog ≠ some l := by
    intro hopen
    have hnone := ((h.openLog l).mp hopen).2
    simp [hl] at hnone
  rw [h.entries l hlog, hl, Option.getD_some]

theorem directories (h : Sets changes a b) (l : Location) :
    b.disk.at? l = some .directory ↔ a.disk.at? l = some .directory := by
  cases hl : changes l with
  | none => rw [← Disk.checkDirectory_eq_ok_iff, ← Disk.checkDirectory_eq_ok_iff, h.tree l hl]
  | some content =>
      obtain ⟨hbefore, hafter⟩ := h.files l content hl
      rw [h.at?_of_some hl]
      exact iff_of_false hafter hbefore

theorem at?_eq_none_iff (h : Sets changes a b) {l : Location} (hl : changes l = none) :
    b.disk.at? l = none ↔ a.disk.at? l = none := by
  rw [← Disk.checkDirectory_eq_missing_iff, ← Disk.checkDirectory_eq_missing_iff, h.tree l hl]

theorem leadsTo_iff (h : Sets changes a b) {path : String} {l : Location} :
    b.disk.LeadsTo path l ↔ a.disk.LeadsTo path l := by
  have hstart : b.disk.start path = a.disk.start path := by simp only [Disk.start, h.here]
  rw [Disk.LeadsTo, Disk.LeadsTo, hstart]
  exact ⟨Disk.walk_of_directoriesIn fun l hl => (h.directories l).mp hl,
    Disk.walk_of_directoriesIn fun l hl => (h.directories l).mpr hl⟩

theorem told (h : Sets changes a b) (k : Told b c) : Sets changes a c where
  environment := k.environment.trans h.environment
  viewer := k.viewer.trans h.viewer
  here := k.disk.here.trans h.here
  closed := k.disk.closed.trans h.closed
  room := k.tree.room.trans h.room
  openLog l := by rw [k.openLog, h.openLog]
  entries l hl := by
    rw [k.openLog] at hl
    rw [k.disk.entries l hl, h.entries l hl]
  tree l hl := (k.tree.check l).trans (h.tree l hl)
  files := h.files

theorem withFile (h : Sets changes a b) (hne : place ≠ [])
    (hplace : b.disk.at? place ≠ some .directory) (bytes : ByteArray) :
    Sets (changes.set place (some (.file bytes))) a (b.withFile place bytes) where
  environment := h.environment
  viewer := h.viewer
  here := h.here
  closed := h.closed
  room := h.room
  openLog l := by
    rw [openLog_withFile_iff, h.openLog, Changes.set_eq_none_iff, and_assoc,
      @and_comm (changes l = none)]
  entries l hl := by
    have hput : (b.withFile place bytes).disk.at? l = _ := Disk.at?_put b.disk hne (.file bytes)
    by_cases hsame : l = place
    · subst hsame
      rw [Changes.set_place, Option.getD_some]
      exact hput.trans (if_pos rfl)
    · rw [Changes.set_of_ne _ _ hsame]
      refine (hput.trans (if_neg (Ne.symm hsame))).trans (h.entries l fun hopen => ?_)
      exact hl (openLog_withFile_iff.mpr ⟨hopen, hsame⟩)
  tree l hl := by
    obtain ⟨hother, hnone⟩ := Changes.set_eq_none_iff.mp hl
    rw [← h.tree l hnone]
    have hput : (b.withFile place bytes).disk.at? l = _ := Disk.at?_put b.disk hne (.file bytes)
    rw [if_neg (Ne.symm hother)] at hput
    exact Disk.checkDirectory_congr hput
  files l content hl := by
    by_cases hsame : l = place
    · rw [hsame, Changes.set_place, Option.some.injEq] at hl
      rw [hsame, ← hl]
      exact ⟨fun hbefore => hplace ((h.directories place).mpr hbefore), by simp⟩
    · rw [Changes.set_of_ne _ _ hsame] at hl
      exact h.files l content hl

/-- What is at a place that is set is replaced by a viewer. -/
theorem reset {content content' : Option Entry} {disk : Disk}
    (h : Sets (changes.set place content) a b) (hagree : AgreeOff (· = place) b.disk disk)
    (hroom : disk.isFull = b.disk.isFull) (hplace : disk.at? place = content')
    (hcontent : content' ≠ some .directory) :
    Sets (changes.set place content') a { b with disk } where
  environment := h.environment
  viewer := h.viewer
  here := hagree.here.trans h.here
  closed := hagree.closed.trans h.closed
  room := hroom.trans h.room
  openLog l := by
    have hopen := h.openLog l
    rw [Changes.set_eq_none_iff] at hopen ⊢
    exact hopen
  entries l hl := by
    by_cases hsame : l = place
    · rw [hsame, Changes.set_place, Option.getD_some]
      exact hplace
    · rw [Changes.set_of_ne _ _ hsame]
      have hbefore := h.entries l hl
      rw [Changes.set_of_ne _ _ hsame] at hbefore
      exact (hagree.entries l hsame).trans hbefore
  tree l hl := by
    obtain ⟨hother, hnone⟩ := Changes.set_eq_none_iff.mp hl
    rw [← h.tree l (Changes.set_eq_none_iff.mpr ⟨hother, hnone⟩)]
    exact Disk.checkDirectory_congr (hagree.entries l hother)
  files l content hl := by
    by_cases hsame : l = place
    · rw [hsame, Changes.set_place, Option.some.injEq] at hl
      rw [hsame, ← hl]
      exact ⟨(h.files place _ (Changes.set_place _ _ _)).1, hcontent⟩
    · rw [Changes.set_of_ne _ _ hsame] at hl
      exact h.files l content (by rw [Changes.set_of_ne _ _ hsame, hl])

theorem again (h : Sets changes a b) (k : Sets changes b c) :
    SameTree b.disk c.disk ∧ AgreeOff (b.openLog = some ·) b.disk c.disk := by
  have hset : ∀ l content, changes l = some content → c.disk.at? l = b.disk.at? l := by
    intro l content hl
    rw [k.at?_of_some hl, h.at?_of_some hl]
  refine ⟨⟨k.here, k.room, fun l => ?_⟩, k.here, k.closed, fun l hl => ?_⟩
  · cases hchange : changes l with
    | none => exact k.tree l hchange
    | some content => exact Disk.checkDirectory_congr (hset l content hchange)
  · cases hchange : changes l with
    | none =>
        have hlog : c.openLog ≠ some l := fun hopen => hl ((k.openLog l).mp hopen).1
        rw [k.entries l hlog, hchange, Option.getD_none]
    | some content => exact hset l content hchange

end Sets

/-! ## Names for temporary files -/

/-- No place that is set has taken the last name for temporary files in its directory. -/
def Changes.SparesNames (changes : Changes) (disk : Disk) : Prop :=
  ∀ i directory content, changes (temporaryName i :: directory) = some content →
    content ≠ none ∧ ∃ j < Disk.maxAttempts, disk.at? (temporaryName j :: directory) = none ∧
      changes (temporaryName j :: directory) = none

/-- Pictures take the same ways after some places have been set. -/
theorem Sets.sameRoutes (h : Sets changes a b) (hnames : changes.SparesNames a.disk) :
    SameRoutes a.disk b.disk where
  here := h.here
  room := h.room
  directories := h.directories
  names l := by
    constructor
    · intro hfree
      obtain ⟨i, hi, hfree⟩ := hfree
      cases hchange : changes (temporaryName i :: l) with
      | none => exact ⟨i, hi, (h.at?_eq_none_iff hchange).mp hfree⟩
      | some content =>
          rw [h.at?_of_some hchange] at hfree
          exact absurd hfree (hnames i l content hchange).1
    · intro hfree
      obtain ⟨i, hi, hfree⟩ := hfree
      cases hchange : changes (temporaryName i :: l) with
      | none => exact ⟨i, hi, (h.at?_eq_none_iff hchange).mpr hfree⟩
      | some content =>
          obtain ⟨-, j, hj, hspare, hother⟩ := hnames i l content hchange
          exact ⟨j, hj, (h.at?_eq_none_iff hother).mpr hspare⟩

theorem Sets.accepts_iff (h : Sets changes a b) (hnames : changes.SparesNames a.disk)
    (path : String) : Accepts b.disk path ↔ Accepts a.disk path :=
  accepts_of_sameRoutes (h.sameRoutes hnames) (sealedAlike_of_eq path h.closed)

theorem Sets.preview (h : Sets changes a b) (hnames : changes.SparesNames a.disk) :
    b.preview = a.preview := by
  rw [Machine.preview, h.environment, (h.sameRoutes hnames).place?, Machine.preview]

theorem noChanges_sparesNames (disk : Disk) : noChanges.SparesNames disk :=
  fun _ _ _ hset => nomatch hset

/-! ## The preview -/

/-- What the viewer leaves of a file that it is started on, if anything, depends on the content of
the file alone; and it touches no other file. Without a viewer the whole file is left. -/
def ViewerLeaves (machine : Machine) (left : ByteArray → Option ByteArray) : Prop :=
  match machine.viewer with
  | none => ∀ bytes, left bytes = some bytes
  | some viewer => ∀ path disk place bytes,
      disk.place? path = some place → disk.at? place = some (.file bytes) →
        AgreeOff (· = place) disk (viewer path disk).2 ∧
          (viewer path disk).2.isFull = disk.isFull ∧
          (viewer path disk).2.at? place = (left bytes).map .file

def ViewerSteady (machine : Machine) : Prop := ∃ left, machine.ViewerLeaves left

def Previews (shown : Bool) (machine : Machine) : Prop :=
  shown = true ∧ hasDisplay machine.environment = true ∧
    Accepts machine.disk (previewPath machine.environment)

inductive Previewed (shown : Bool) (left : ByteArray → Option ByteArray) (bytes : ByteArray)
    (before : Machine) : Changes → Prop where
  | hidden : ¬Previews shown before → Previewed shown left bytes before noChanges
  | viewed {place : Location} : Previews shown before → before.preview = some place →
      Previewed shown left bytes before (noChanges.set place ((left bytes).map .file))

variable {shown : Bool} {left : ByteArray → Option ByteArray} {bytes : ByteArray} {p : Png.Picture}

theorem ViewerLeaves.of_sets (h : Sets changes a b) (hleft : a.ViewerLeaves left) :
    b.ViewerLeaves left := by
  rw [ViewerLeaves, h.viewer]
  exact hleft

theorem Previewed.eq_none (h : Previewed shown left bytes machine changes) (i : Nat)
    (directory : Location) : changes (temporaryName i :: directory) = none := by
  cases h with
  | hidden _ => rfl
  | viewed _ hpreview =>
      obtain ⟨location, rfl⟩ := Disk.place?_join (by decide) hpreview
      refine Changes.set_eq_none_iff.mpr ⟨fun heq => ?_, rfl⟩
      exact temporaryName_ne_previewName i (List.cons.inj heq).1

theorem Previewed.sparesNames (h : Previewed shown left bytes machine changes) (disk : Disk) :
    changes.SparesNames disk := by
  intro i directory content hset
  rw [h.eq_none i directory] at hset
  cases hset

theorem Previewed.congr (h : Previewed shown left bytes a changes)
    (h' : Previewed shown left bytes b changes') (hpreviews : Previews shown b ↔ Previews shown a)
    (hplace : b.preview = a.preview) : changes' = changes := by
  cases h with
  | hidden hnot =>
      cases h' with
      | hidden _ => rfl
      | viewed hpreviews' _ => exact absurd (hpreviews.mp hpreviews') hnot
  | viewed hshows hpreview =>
      cases h' with
      | hidden hnot => exact absurd (hpreviews.mpr hshows) hnot
      | viewed _ hpreview' =>
          rw [hplace, hpreview, Option.some.injEq] at hpreview'
          rw [hpreview']

/-- A viewer that is started on the picture leaves of it what it always leaves. -/
theorem Sets.view {path : String} (hset : Sets (changes.set place (some (.file bytes))) a b)
    (hleft : b.ViewerLeaves left) (hplace : b.disk.place? path = some place) :
    Sets (changes.set place ((left bytes).map .file)) a
      ((Host.view path : StateM Machine _) b).2 := by
  simp only [Host.view]
  split
  · rename_i hviewer
    rw [ViewerLeaves, hviewer] at hleft
    rw [hleft bytes]
    exact hset
  · rename_i viewer hviewer
    rw [ViewerLeaves, hviewer] at hleft
    have hthere := hset.at?_of_some (Changes.set_place _ _ _)
    obtain ⟨hagree, hroom, hfile⟩ := hleft path b.disk place bytes hplace hthere
    exact hset.reset hagree hroom hfile (by cases left bytes <;> simp)

theorem Sets.previews_iff (h : Sets changes a b) (hnames : changes.SparesNames a.disk)
    (shown : Bool) : Previews shown b ↔ Previews shown a := by
  rw [Previews, Previews, h.environment, h.accepts_iff hnames]

theorem exists_previewed (shown : Bool) (hencode : encodePicture p = .ok bytes)
    (hleft : a.ViewerLeaves left) (htold : Told a machine) :
    ∃ changes, Previewed shown left bytes a changes ∧
      Sets changes a ((present shown p : StateM Machine _) machine).2 := by
  have hquiet := htold.sets
  have hpreviews := hquiet.previews_iff (noChanges_sparesNames a.disk) shown
  cases shown with
  | false => exact ⟨noChanges, .hidden nofun, hquiet.told (told_present_false p machine)⟩
  | true =>
      have hshows := shows_showPicture p machine
      have hpresented := told_present_true p machine
      generalize (showPicture p : StateM Machine _) machine = after at hshows hpresented
      cases hshows with
      | hidden hdisplay hhidden =>
          refine ⟨noChanges, .hidden fun h => ?_, (hquiet.told hhidden).told hpresented⟩
          have hdisplay' := (hpreviews.mpr h).2.1
          rw [hdisplay] at hdisplay'
          cases hdisplay'
      | failed _ hwrite =>
          refine ⟨noChanges, .hidden fun h => ?_, hquiet.told hpresented⟩
          have hwritten := (writePicture_eq_ok_iff (previewPath machine.environment) p machine).mpr
            ⟨⟨bytes, hencode⟩, (hpreviews.mpr h).2.2⟩
          rw [hwrite] at hwritten
          cases hwritten
      | @viewed target content _ hdisplay hwrite hencode' hplace htarget =>
          rw [hencode, Except.ok.injEq] at hencode'
          subst hencode'
          have hwritten := (writePicture_eq_ok_iff (previewPath machine.environment) p machine).mp
            (by rw [hwrite])
          have hne := Disk.place?_ne_nil hplace
          have hfile := hquiet.withFile hne htarget bytes
          have hthere := (Disk.place?_put_iff hne htarget bytes).mpr hplace
          have hleft' := ViewerLeaves.of_sets hfile hleft
          exact ⟨_, .viewed (hpreviews.mp ⟨rfl, hdisplay, hwritten.2⟩) (htold.preview ▸ hplace),
            (hfile.view hleft' hthere).told hpresented⟩

end Machine

open Machine

/-! ## One run -/

/-- How a run ends, and which places it has set then. -/
inductive Aftermath (s : Settings) (left : ByteArray → Option ByteArray) (before : Machine) :
    Except RunError Unit → Changes → Prop where
  | notLoaded {e : Benchmark.LoadError} :
      loaded s before = .error e →
      Aftermath s left before (.error (.load s.paths.input e)) noChanges
  | notRendered {samples : List Sample} :
      loaded s before = .ok samples → isCanvas s.canvasSize.1 s.canvasSize.2 = false →
      Aftermath s left before
        (.error (.render ⟨s.canvasSize.1.toNat, s.canvasSize.2.toNat⟩)) noChanges
  | notWritten {samples : List Sample} {chart : RenderedChart} {bytes : ByteArray}
      {fault : WriteFault} {changes : Changes} :
      loaded s before = .ok samples →
      (BarChart.ofSamples samples).render s.canvasSize.1 s.canvasSize.2 = .ok chart →
      encodePicture chart.toPicture = .ok bytes →
      Previewed s.chart.shown left bytes before changes → ¬Accepts before.disk s.paths.output →
      Aftermath s left before (.error (.write ⟨s.paths.output, fault⟩)) changes
  | written {samples : List Sample} {chart : RenderedChart} {bytes : ByteArray}
      {changes : Changes} {target : Location} :
      loaded s before = .ok samples →
      (BarChart.ofSamples samples).render s.canvasSize.1 s.canvasSize.2 = .ok chart →
      encodePicture chart.toPicture = .ok bytes →
      Previewed s.chart.shown left bytes before changes → Accepts before.disk s.paths.output →
      before.disk.place? s.paths.output = some target →
      Aftermath s left before (.ok ()) (changes.set target (some (.file bytes)))

theorem loadContent_error_ne_ok (path : String) (failure : Failure) (samples : List Sample) :
    loadContent path (.error failure) ≠ .ok samples := by
  cases failure <;> simp [loadContent]

section Aftermath

variable {s : Settings} {left : ByteArray → Option ByteArray} {a b machine : Machine}
  {changes changes' : Changes} {r r' : Except RunError Unit}

theorem aftermath_run (s : Settings) (hleft : machine.ViewerLeaves left) :
    ∃ changes, Aftermath s left machine ((run s : StateM Machine _) machine).1 changes ∧
      Sets changes machine ((run s : StateM Machine _) machine).2 := by
  have hstages := run_stages s machine
  generalize (run s : StateM Machine _) machine = ended at hstages ⊢
  cases hstages with
  | notLoaded hload htold => exact ⟨_, .notLoaded hload, htold.sets⟩
  | notRendered hload hcanvas htold => exact ⟨_, .notRendered hload hcanvas, htold.sets⟩
  | @notWritten samples chart listed fault hload hrender htold hwrite =>
      obtain ⟨bytes, hencode⟩ := encode_render hrender
      obtain ⟨changes, hpreviewed, hset⟩ := exists_previewed s.chart.shown hencode hleft htold
      refine ⟨_, .notWritten hload hrender hencode hpreviewed fun haccepts => ?_, hset⟩
      have hwritten := (writePicture_eq_ok_iff s.paths.output chart.toPicture _).mpr
        ⟨⟨bytes, hencode⟩, (hset.accepts_iff (hpreviewed.sparesNames _) _).mpr haccepts⟩
      unfold presented at hwrite
      rw [hwrite] at hwritten
      cases hwritten
  | @written samples chart bytes target listed after hload hrender hencode hlisted hplace htarget
      hwrite htold =>
      obtain ⟨changes, hpreviewed, hset⟩ := exists_previewed s.chart.shown hencode hleft hlisted
      have hnames := hpreviewed.sparesNames machine.disk
      have haccepts := (writePicture_eq_ok_iff s.paths.output chart.toPicture
        (presented s chart.toPicture listed)).mp (by rw [hwrite])
      have hfile := hset.withFile (Disk.place?_ne_nil hplace) htarget bytes
      refine ⟨_, .written hload hrender hencode hpreviewed
        ((hset.accepts_iff hnames _).mp haccepts.2) ?_, hfile.told htold⟩
      rw [← (hset.sameRoutes hnames).place?]
      exact hplace

/-- The output does not have the last name for temporary files in its directory. -/
def SpareName (disk : Disk) (path : String) : Prop :=
  ∀ i directory, disk.place? path = some (temporaryName i :: directory) →
    ∃ j < Disk.maxAttempts, temporaryName j ≠ temporaryName i ∧
      disk.at? (temporaryName j :: directory) = none

namespace Aftermath

theorem eq_none (h : Aftermath s left a r changes) {l : Location} (hpreview : a.preview ≠ some l)
    (houtput : a.disk.place? s.paths.output ≠ some l) : changes l = none := by
  have hshown : ∀ {bytes changes}, Previewed s.chart.shown left bytes a changes →
      changes l = none := by
    intro bytes changes hpreviewed
    cases hpreviewed with
    | hidden _ => rfl
    | viewed _ hplace =>
        exact Changes.set_eq_none_iff.mpr ⟨fun heq => hpreview (heq ▸ hplace), rfl⟩
  cases h with
  | notLoaded _ => rfl
  | notRendered _ _ => rfl
  | notWritten _ _ _ hpreviewed _ => exact hshown hpreviewed
  | written _ _ _ hpreviewed _ hplace =>
      exact Changes.set_eq_none_iff.mpr
        ⟨fun heq => houtput (heq ▸ hplace), hshown hpreviewed⟩

theorem sparesNames (h : Aftermath s left a r changes)
    (hspare : SpareName a.disk s.paths.output) : changes.SparesNames a.disk := by
  cases h with
  | notLoaded _ => exact noChanges_sparesNames _
  | notRendered _ _ => exact noChanges_sparesNames _
  | notWritten _ _ _ hpreviewed _ => exact hpreviewed.sparesNames _
  | @written _ _ bytes _ target _ _ _ hpreviewed _ hplace =>
      intro i directory content hset
      by_cases htarget : temporaryName i :: directory = target
      · obtain ⟨j, hj, hne, hfree⟩ := hspare i directory (htarget ▸ hplace)
        rw [htarget, Changes.set_place, Option.some.injEq] at hset
        refine ⟨by simp [← hset], j, hj, hfree, Changes.set_eq_none_iff.mpr ⟨fun heq => ?_, ?_⟩⟩
        · exact hne (List.cons.inj (heq.trans htarget.symm)).1
        · exact hpreviewed.eq_none j directory
      · rw [Changes.set_of_ne _ _ htarget, hpreviewed.eq_none i directory] at hset
        cases hset

theorem quiet_or_loaded (h : Aftermath s left a r changes) :
    changes = noChanges ∨ ∃ samples, loaded s a = .ok samples := by
  cases h with
  | notLoaded _ => exact .inl rfl
  | notRendered _ _ => exact .inl rfl
  | notWritten hload _ _ _ _ => exact .inr ⟨_, hload⟩
  | written hload _ _ _ _ _ => exact .inr ⟨_, hload⟩

/-! ## The next run -/

/-- The same table is loaded again from an input that is neither set nor the log's file. -/
theorem loaded_eq (h : Aftermath s left a r changes) (hset : Sets changes a b)
    (hinput : ∀ l, a.disk.LeadsTo s.paths.input l → changes l = none)
    (hlog : a.LogApart s.paths.input) : loaded s b = loaded s a := by
  have hread : ∀ {m : Machine}, m.LogApart s.paths.input →
      loaded s m = loadContent s.paths.input (m.disk.read s.paths.input) := by
    intro m hapart
    rw [loaded, read_announced s hapart]
  have hlog' : b.LogApart s.paths.input := fun l hl hopen =>
    hlog l (hset.leadsTo_iff.mp hl) ((hset.openLog l).mp hopen).1
  have hsame : ∀ l, a.disk.LeadsTo s.paths.input l → b.disk.at? l = a.disk.at? l := by
    intro l hl
    have hentry := hset.entries l (hlog' l (hset.leadsTo_iff.mpr hl))
    rwa [hinput l hl, Option.getD_none] at hentry
  rw [hread hlog', hread hlog]
  rcases h.quiet_or_loaded with rfl | ⟨samples, hload⟩
  · -- without any change the path leads the same way, or fails to in the same way
    have htree : SameTree a.disk b.disk := ⟨hset.here, hset.room, fun l => hset.tree l rfl⟩
    rw [htree.read hsame]
  · rw [hread hlog] at hload
    have hcontent := Disk.content?_congr (fun l => hset.leadsTo_iff) hsame
    cases hbefore : a.disk.read s.paths.input with
    | error failure =>
        rw [hbefore] at hload
        exact absurd hload (loadContent_error_ne_ok _ _ samples)
    | ok bytes =>
        rw [Disk.content?_of_read hbefore] at hcontent
        rw [Disk.read_of_content? hcontent]

theorem alike (h : Aftermath s left a r changes) (h' : Aftermath s left b r' changes')
    (hload : loaded s b = loaded s a)
    (haccepts : Accepts b.disk s.paths.output ↔ Accepts a.disk s.paths.output)
    (hplace : b.disk.place? s.paths.output = a.disk.place? s.paths.output)
    (hpreviews : Previews s.chart.shown b ↔ Previews s.chart.shown a)
    (hpreview : b.preview = a.preview) : Alike s.paths.output r r' ∧ changes' = changes := by
  cases h with
  | notLoaded hload₁ =>
      rw [hload₁] at hload
      cases h' with
      | notLoaded hload₂ =>
          rw [hload, Except.error.injEq] at hload₂
          rw [hload₂]
          exact ⟨.inl rfl, rfl⟩
      | _ => simp_all
  | notRendered hload₁ hcanvas =>
      rw [hload₁] at hload
      cases h' with
      | notRendered _ _ => exact ⟨.inl rfl, rfl⟩
      | notLoaded hload₂ => simp [hload] at hload₂
      | notWritten _ hrender =>
          rw [(BarChart.render_eq_ok_iff.mp hrender).1] at hcanvas
          cases hcanvas
      | written _ hrender =>
          rw [(BarChart.render_eq_ok_iff.mp hrender).1] at hcanvas
          cases hcanvas
  | notWritten hload₁ hrender₁ hencode₁ hpreviewed₁ hnot =>
      rw [hload₁] at hload
      cases h' with
      | notLoaded hload₂ => simp [hload] at hload₂
      | notRendered _ hcanvas =>
          rw [(BarChart.render_eq_ok_iff.mp hrender₁).1] at hcanvas
          cases hcanvas
      | written _ _ _ _ hyes => exact absurd (haccepts.mp hyes) hnot
      | notWritten hload₂ hrender₂ hencode₂ hpreviewed₂ _ =>
          obtain rfl := Except.ok.inj (hload.symm.trans hload₂)
          obtain rfl := Except.ok.inj (hrender₁.symm.trans hrender₂)
          obtain rfl := Except.ok.inj (hencode₁.symm.trans hencode₂)
          exact ⟨.inr ⟨_, _, rfl, rfl⟩, hpreviewed₁.congr hpreviewed₂ hpreviews hpreview⟩
  | written hload₁ hrender₁ hencode₁ hpreviewed₁ hyes hplace₁ =>
      rw [hload₁] at hload
      cases h' with
      | notLoaded hload₂ => simp [hload] at hload₂
      | notRendered _ hcanvas =>
          rw [(BarChart.render_eq_ok_iff.mp hrender₁).1] at hcanvas
          cases hcanvas
      | notWritten _ _ _ _ hnot => exact absurd (haccepts.mpr hyes) hnot
      | written hload₂ hrender₂ hencode₂ hpreviewed₂ _ hplace₂ =>
          obtain rfl := Except.ok.inj (hload.symm.trans hload₂)
          obtain rfl := Except.ok.inj (hrender₁.symm.trans hrender₂)
          obtain rfl := Except.ok.inj (hencode₁.symm.trans hencode₂)
          rw [hplace, hplace₁, Option.some.injEq] at hplace₂
          rw [hplace₂, hpreviewed₁.congr hpreviewed₂ hpreviews hpreview]
          exact ⟨.inl rfl, rfl⟩

theorem again {c : Machine} (hfirst : Aftermath s left a r changes) (hset : Sets changes a b)
    (hsecond : Aftermath s left b r' changes') (hset' : Sets changes' b c)
    (hinput : ∀ l, a.disk.LeadsTo s.paths.input l →
      a.disk.place? s.paths.output ≠ some l ∧ a.preview ≠ some l)
    (hlog : a.LogApart s.paths.input) (hspare : SpareName a.disk s.paths.output) :
    Alike s.paths.output r r' ∧ SameTree b.disk c.disk ∧
      AgreeOff (b.openLog = some ·) b.disk c.disk := by
  have hnames := hfirst.sparesNames hspare
  have hload : loaded s b = loaded s a :=
    hfirst.loaded_eq hset (fun l hl => hfirst.eq_none (hinput l hl).2 (hinput l hl).1) hlog
  obtain ⟨halike, rfl⟩ := hfirst.alike hsecond hload (hset.accepts_iff hnames _)
    ((hset.sameRoutes hnames).place? _) (hset.previews_iff hnames _) (hset.preview hnames)
  exact ⟨halike, hset.again hset'⟩

end Aftermath

end Aftermath

/-! ## Main result -/

theorem Alike.message {output : String} {r r' : Except RunError Unit} (h : Alike output r r') :
    r'.mapError RunError.message = r.mapError RunError.message := by
  rcases h with rfl | ⟨f, g, rfl, rfl⟩ <;> rfl

/-- A repeated run changes nothing. If neither the output nor the preview is the input, a second run
with the same settings ends as the first one did, and leaves every file, the output and the preview
among them, as the first one left it. Only a log file that is still to be seen gets longer; it must
not be the input either. The viewer may do with the preview what it likes, the same each time. An
output that is named like a temporary file must leave another such name in its directory. -/
theorem repeated_run_changes_nothing {s : Settings} {machine : Machine}
    (hinput : ∀ l, machine.disk.LeadsTo s.paths.input l →
      machine.disk.place? s.paths.output ≠ some l ∧ machine.preview ≠ some l)
    (hlog : machine.LogApart s.paths.input) (hviewer : machine.ViewerSteady)
    (hspare : SpareName machine.disk s.paths.output) :
    let first := (run s : StateM Machine _) machine
    let second := (run s : StateM Machine _) first.2
    Alike s.paths.output first.1 second.1 ∧
      second.1.mapError RunError.message = first.1.mapError RunError.message ∧
      SameTree first.2.disk second.2.disk ∧
      AgreeOff (first.2.openLog = some ·) first.2.disk second.2.disk := by
  obtain ⟨left, hleft⟩ := hviewer
  obtain ⟨changes, hfirst, hset⟩ := aftermath_run s hleft
  obtain ⟨changes', hsecond, hset'⟩ := aftermath_run s (ViewerLeaves.of_sets hset hleft)
  obtain ⟨halike, hsame⟩ := hfirst.again hset hsecond hset' hinput hlog hspare
  exact ⟨halike, halike.message, hsame⟩

def tableSettings : Settings := { Settings.default with paths := ⟨"sizes.csv", "dot.png"⟩ }

theorem preview_tableMachine : tableMachine.preview = some [previewName, "tmp"] :=
  Disk.place?_of_parts (Disk.checkPath_eq_ok_iff.mpr (by decide))
    (show Files.Path.parts "/tmp/rehash_rds.png" = ["", "tmp"] ++ [previewName] by decide)
    (by decide) (by decide) (by decide) rfl rfl

theorem previews_tableMachine : Previews true tableMachine := by
  have hfree : tableMachine.disk.at? [previewName, "tmp"] = none := rfl
  have hway : Way tableMachine.disk (previewPath tableMachine.environment) ["tmp"]
      [previewName, "tmp"] :=
    ⟨rfl, Disk.checkPath_eq_ok_iff.mpr (by decide), rfl, rfl, ⟨0, by decide, rfl⟩,
      preview_tableMachine, by simp [hfree]⟩
  exact ⟨rfl, by decide, _, _, hway, List.not_mem_nil, List.not_mem_nil⟩

theorem viewerLeaves_tableMachine : tableMachine.ViewerLeaves fun _ => some .empty := by
  intro path disk place bytes hplace _
  have hview : emptyingViewer path disk = (.exited 0, disk.put place (.file .empty)) := by
    rw [emptyingViewer, hplace]
  have hne := Disk.place?_ne_nil hplace
  rw [hview]
  exact ⟨Disk.agreeOff_put disk hne _, rfl, (Disk.at?_put disk hne _).trans (if_pos rfl)⟩

theorem eq_of_leadsTo_input {l : Location}
    (h : tableMachine.disk.LeadsTo tableSettings.paths.input l) : l = ["sizes.csv", "work"] :=
  (Except.ok.inj h).symm

theorem logApart_tableMachine : tableMachine.LogApart tableSettings.paths.input := by
  intro l hl
  rw [eq_of_leadsTo_input hl, show tableMachine.openLog = some ["run.log", "work"] from rfl]
  decide

theorem read_tableMachine :
    tableMachine.disk.read tableSettings.paths.input =
      .ok "insert size,rehash rounds\n100,2\n".toUTF8 := by
  have hpath : Disk.checkPath "sizes.csv" = .ok () := Disk.checkPath_eq_ok_iff.mpr (by decide)
  rw [show tableSettings.paths.input = "sizes.csv" from rfl, Disk.read, Disk.locate, hpath]
  rfl

theorem spareName_tableMachine : SpareName tableMachine.disk tableSettings.paths.output := by
  intro i directory hplace
  have hname := (List.cons.inj (Option.some.inj (hplace.symm.trans place?_dot))).1
  have hlist := congrArg String.toList hname
  simp [temporaryName] at hlist

theorem run_tableMachine :
    ((run tableSettings : StateM Machine _) tableMachine).1 = .ok () ∧
      ((run tableSettings : StateM Machine _) tableMachine).2.disk.at? [previewName, "tmp"] =
        some (.file .empty) ∧
      ((run tableSettings : StateM Machine _) tableMachine).2.disk.place? "dot.png" =
        some ["dot.png", "work"] := by
  obtain ⟨changes, hafter, hset⟩ := aftermath_run tableSettings viewerLeaves_tableMachine
  have hthere := ((hset.sameRoutes (hafter.sparesNames spareName_tableMachine)).place? _).trans
    place?_dot
  have hload : loaded tableSettings tableMachine = .ok [⟨100, 2⟩] := by
    rw [loaded, read_announced tableSettings logApart_tableMachine, read_tableMachine]
    rfl
  generalize (run tableSettings : StateM Machine _) tableMachine = ended at hafter hset hthere ⊢
  obtain ⟨result, after⟩ := ended
  dsimp only at hafter hset hthere ⊢
  cases hafter with
  | notLoaded hnot =>
      rw [hload] at hnot
      cases hnot
  | notRendered _ hnot => exact absurd hnot (by decide +kernel)
  | notWritten _ _ _ _ hnot => exact absurd accepts_dot hnot
  | written _ _ _ hpreviewed _ hplace =>
      refine ⟨rfl, hset.at?_of_some ?_, hthere⟩
      cases Option.some.inj (hplace.symm.trans place?_dot)
      rw [Changes.set_of_ne _ _ (by decide)]
      cases hpreviewed with
      | hidden hnot => exact absurd previews_tableMachine hnot
      | viewed _ hpreview =>
          cases Option.some.inj (hpreview.symm.trans preview_tableMachine)
          exact Changes.set_place _ _ _

/-- The viewer empties the preview each time, and the picture is written each time. -/
theorem table_repeated :
    (∀ l, tableMachine.disk.LeadsTo tableSettings.paths.input l →
      tableMachine.disk.place? tableSettings.paths.output ≠ some l ∧
        tableMachine.preview ≠ some l) ∧
    tableMachine.LogApart tableSettings.paths.input ∧ tableMachine.ViewerSteady ∧
    SpareName tableMachine.disk tableSettings.paths.output ∧
    ((run tableSettings : StateM Machine _) tableMachine).1 = .ok () ∧
    Alike tableSettings.paths.output ((run tableSettings : StateM Machine _) tableMachine).1
      ((run tableSettings : StateM Machine _)
        ((run tableSettings : StateM Machine _) tableMachine).2).1 := by
  have hinput : ∀ l, tableMachine.disk.LeadsTo tableSettings.paths.input l →
      tableMachine.disk.place? tableSettings.paths.output ≠ some l ∧
        tableMachine.preview ≠ some l := by
    intro l hl
    rw [eq_of_leadsTo_input hl, preview_tableMachine,
      show tableSettings.paths.output = "dot.png" from rfl, place?_dot]
    exact ⟨by decide, by decide⟩
  have hviewer : tableMachine.ViewerSteady := ⟨_, viewerLeaves_tableMachine⟩
  exact ⟨hinput, logApart_tableMachine, hviewer, spareName_tableMachine, run_tableMachine.1,
    (repeated_run_changes_nothing hinput logApart_tableMachine hviewer spareName_tableMachine).1⟩

end RehashChart
