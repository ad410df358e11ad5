import RehashChart.Proofs.Run.Outcome
import RehashChart.Proofs.Run.Spared

/-! # Showing the chart and the outcome

Two runs that differ in whether the chart is shown end alike, and leave the same at their output,
but for one case. The output can have another path to the preview's file, one that a picture cannot
be written to although it can be written to the preview's; then the preview is left at the output of
a failed run.
-/

namespace RehashChart

open Files (Disk Failure Location)
open Files.Disk (AgreeOff SameTree)
open Machine

/-! ## One run -/

/-- How a run ends, and what is at its output then, by the table that has been loaded, by whether a
picture can be written there (`accepts`), and by what was there before. A failed run leaves that as
it was if the log goes elsewhere (`apart`) and, where it gets as far as writing, no preview has been
left there (`covered`). -/
inductive Ends (paths : Paths) (size : UInt32 × UInt32)
    (table : Except Benchmark.LoadError (List Sample)) (accepts apart covered : Prop)
    (before : Option ByteArray) : Except RunError Unit → Option ByteArray → Prop where
  | notLoaded {e : Benchmark.LoadError} {after : Option ByteArray} :
      table = .error e → (apart → after = before) →
      Ends paths size table accepts apart covered before (.error (.load paths.input e)) after
  | notRendered {samples : List Sample} {after : Option ByteArray} :
      table = .ok samples → isCanvas size.1 size.2 = false → (apart → after = before) →
      Ends paths size table accepts apart covered before
        (.error (.render ⟨size.1.toNat, size.2.toNat⟩)) after
  | notWritten {samples : List Sample} {fault : WriteFault} {after : Option ByteArray} :
      table = .ok samples → isCanvas size.1 size.2 = true → ¬accepts →
      (apart → ¬covered → after = before) →
      Ends paths size table accepts apart covered before
        (.error (.write ⟨paths.output, fault⟩)) after
  | written {samples : List Sample} {chart : RenderedChart} {bytes : ByteArray} :
      table = .ok samples →
      (BarChart.ofSamples samples).render size.1 size.2 = .ok chart → accepts →
      encodePicture chart.toPicture = .ok bytes →
      Ends paths size table accepts apart covered before (.ok ()) (some bytes)

namespace Machine

variable {s : Settings} {p : Png.Picture} {path : String} {machine listed : Machine}

theorem Told.overwrites {shown : Bool} (htold : Told machine listed)
    (h : Overwrites shown listed path) : Overwrites shown machine path := by
  obtain ⟨hshown, hdisplay, haccepts, l, hpreview, hleads⟩ := h
  rw [htold.environment] at hdisplay haccepts
  rw [htold.preview] at hpreview
  have hspared : Spares True (previewPath machine.environment) machine listed :=
    htold.spares fun hnot => absurd trivial hnot
  have hspared' : Spares True path machine listed := htold.spares fun hnot => absurd trivial hnot
  exact ⟨hshown, hdisplay, hspared.disk.accepts.mp haccepts, l, hpreview,
    (hspared'.disk.leads l).mp hleads⟩

theorem spares_presented (s : Settings) (p : Png.Picture) (hviewer : machine.ViewerSpares path)
    (htold : Told machine listed) :
    Spares (Overwrites s.chart.shown machine path ∨ ¬machine.LogApart path) path machine
      (presented s p listed) := by
  have hviewer' : listed.ViewerSpares path := by
    rw [ViewerSpares, htold.viewer]
    exact hviewer
  have hlisted : Spares (¬machine.LogApart path) path machine listed :=
    htold.spares fun hkept => Classical.byContradiction hkept
  have hshown := spares_present s.chart.shown p hviewer'
  refine ⟨fun l hl => hlisted.openLog l (hshown.openLog l hl), ?_⟩
  refine (hlisted.disk.mono Or.inr).trans (hshown.disk.mono ?_)
  intro hlost
  cases hlost with
  | inl hover => exact .inl (htold.overwrites hover)
  | inr hlog => exact .inr fun hapart => hlog (hlisted.logApart hapart)

def Covers (shown : Bool) (machine : Machine) (path : String) : Prop :=
  Overwrites shown machine path ∧ ¬Accepts machine.disk path

end Machine

theorem run_ends (s : Settings) {machine : Machine}
    (hviewer : machine.ViewerSpares s.paths.output) :
    Ends s.paths s.canvasSize (loaded s machine) (Accepts machine.disk s.paths.output)
      (machine.LogApart s.paths.output) (Covers s.chart.shown machine s.paths.output)
      (machine.disk.content? s.paths.output)
      ((run s : StateM Machine _) machine).1
      (((run s : StateM Machine _) machine).2.disk.content? s.paths.output) := by
  have hstages := run_stages s machine
  have htelling {after : Machine} (htold : Told machine after)
      (hapart : machine.LogApart s.paths.output) :
      after.disk.content? s.paths.output = machine.disk.content? s.paths.output := by
    have hspared : Machine.Spares False s.paths.output machine after := htold.spares fun _ => hapart
    exact hspared.disk.content not_false
  generalize (run s : StateM Machine _) machine = ended at hstages ⊢
  cases hstages with
  | notLoaded hload htold => exact .notLoaded hload (htelling htold)
  | notRendered hload hcanvas htold => exact .notRendered hload hcanvas (htelling htold)
  | @notWritten samples chart listed fault hload hrender htold hwrite =>
      have hspared := spares_presented s chart.toPicture hviewer htold
      have hnot : ¬Accepts machine.disk s.paths.output := by
        intro haccepts
        have hwritten := (writePicture_eq_ok_iff s.paths.output chart.toPicture _).mpr
          ⟨encode_render hrender, hspared.disk.accepts.mpr haccepts⟩
        rw [hwrite] at hwritten
        cases hwritten
      refine .notWritten hload (BarChart.render_eq_ok_iff.mp hrender).1 hnot
        fun hapart hclear => hspared.disk.content fun hlost => ?_
      rcases hlost with hover | hlog
      · exact hclear ⟨hover, hnot⟩
      · exact hlog hapart
  | @written samples chart bytes target listed after hload hrender hencode hlisted hplace htarget
      hwrite htold =>
      have hspared := spares_presented s chart.toPicture hviewer hlisted
      have hwritten := (writePicture_eq_ok_iff s.paths.output chart.toPicture
        (presented s chart.toPicture listed)).mp (by rw [hwrite])
      have haccepts := hspared.disk.accepts.mp hwritten.2
      have hread := (read_written hplace htarget htold).2
      rw [Disk.content?_of_read hread]
      exact .written hload hrender haccepts hencode

/-! ## Two runs -/

def Alike (output : String) (a b : Except RunError Unit) : Prop :=
  a = b ∨ ∃ f g, a = .error (.write ⟨output, f⟩) ∧ b = .error (.write ⟨output, g⟩)

theorem Ends.alike {paths : Paths} {size : UInt32 × UInt32}
    {table : Except Benchmark.LoadError (List Sample)}
    {accepts apart apart' covered covered' : Prop} {before c c' : Option ByteArray}
    {r r' : Except RunError Unit} (h : Ends paths size table accepts apart covered before r c)
    (h' : Ends paths size table accepts apart' covered' before r' c') :
    Alike paths.output r r' ∧
      (r = .ok () ∨ apart ∧ apart' ∧ ((∀ e, r ≠ .error (.write e)) ∨ ¬covered ∧ ¬covered') →
        c = c') := by
  cases h with
  | notLoaded hload hkept =>
      cases h' with
      | notLoaded hload' hkept' =>
          rw [hload] at hload'
          cases hload'
          refine ⟨.inl rfl, fun hor => ?_⟩
          obtain ⟨hapart, hapart', _⟩ := hor.resolve_left (by simp)
          rw [hkept hapart, hkept' hapart']
      | _ => simp_all
  | notRendered hload hcanvas hkept =>
      cases h' with
      | notRendered _ _ hkept' =>
          refine ⟨.inl rfl, fun hor => ?_⟩
          obtain ⟨hapart, hapart', _⟩ := hor.resolve_left (by simp)
          rw [hkept hapart, hkept' hapart']
      | written _ hrender =>
          rw [(BarChart.render_eq_ok_iff.mp hrender).1] at hcanvas
          cases hcanvas
      | _ => simp_all
  | notWritten hload hcanvas hnot hkept =>
      cases h' with
      | notWritten _ _ _ hkept' =>
          refine ⟨.inr ⟨_, _, rfl, rfl⟩, fun hor => ?_⟩
          obtain ⟨hapart, hapart', hclear⟩ := hor.resolve_left (by simp)
          obtain ⟨hclear, hclear'⟩ := hclear.resolve_left fun hother => hother _ rfl
          rw [hkept hapart hclear, hkept' hapart' hclear']
      | _ => simp_all
  | written hload hrender haccepts hencode =>
      cases h' with
      | written hload' hrender' _ hencode' =>
          rw [hload] at hload'
          cases hload'
          rw [hrender] at hrender'
          cases hrender'
          rw [hencode] at hencode'
          cases hencode'
          exact ⟨.inl rfl, fun _ => rfl⟩
      | notRendered _ hcanvas =>
          rw [(BarChart.render_eq_ok_iff.mp hrender).1] at hcanvas
          cases hcanvas
      | _ => simp_all

def Settings.withShown (shown : Bool) (s : Settings) : Settings :=
  { s with chart := { s.chart with shown } }

/-- Two machines with the same files, in the same working directory. Their environments, viewers and
logs may differ, and so may what is sealed on them, the directories on a picture's way to a path
apart. -/
structure Twins (path : String) (a b : Machine) : Prop where
  entries : b.disk.entries = a.disk.entries
  here : b.disk.here = a.disk.here
  room : b.disk.isFull = a.disk.isFull
  closed : SealedAlike path a.disk b.disk

namespace Twins

variable {path : String} {a b : Machine}

theorem at? (h : Twins path a b) (location : Location) :
    b.disk.at? location = a.disk.at? location := by
  simp only [Disk.at?, h.entries]

theorem sameTree (h : Twins path a b) : SameTree a.disk b.disk :=
  ⟨h.here, h.room, fun l => by simp only [Disk.checkDirectory, h.at?]⟩

theorem read (h : Twins path a b) (other : String) :
    b.disk.read other = a.disk.read other :=
  h.sameTree.read fun location _ => h.at? location

end Twins

theorem read_announced_twins {path : String} {a b : Machine} (s t : Settings) (input : String)
    (htwins : Twins path a b) (ha : a.LogApart input) (hb : b.LogApart input) :
    (announced s a).disk.read input = (announced t b).disk.read input := by
  rw [read_announced s ha, read_announced t hb, htwins.read]

/-- Without a display, or without the wish to see it, a chart is shown by telling so. -/
theorem told_presented (s : Settings) (p : Png.Picture) (machine : Machine)
    (h : s.chart.shown = false ∨ hasDisplay machine.environment = false) :
    Told machine (presented s p machine) := by
  unfold presented
  cases hshown : s.chart.shown with
  | false => exact told_present_false p machine
  | true =>
      have hdisplay : hasDisplay machine.environment = false := by simpa [hshown] using h
      have hshows := shows_showPicture p machine
      have htold := told_present_true p machine
      generalize (showPicture p : StateM Machine _) machine = after at hshows htold
      cases hshows with
      | hidden _ hhidden => exact hhidden.trans htold
      | failed hdisplay' _ =>
          rw [hdisplay] at hdisplay'
          cases hdisplay'
      | viewed hdisplay' _ _ _ _ =>
          rw [hdisplay] at hdisplay'
          cases hdisplay'

theorem agreeOff_of_quiet (s : Settings) {machine : Machine}
    (h : s.chart.shown = false ∨ hasDisplay machine.environment = false) :
    AgreeOff (fun l => machine.openLog = some l ∨ machine.disk.place? s.paths.output = some l)
      machine.disk ((run s : StateM Machine _) machine).2.disk := by
  have hstages := run_stages s machine
  have htelling {p : Png.Picture} {listed : Machine} (htold : Told machine listed) :
      Told machine (presented s p listed) :=
    htold.trans (told_presented s p listed (by rw [htold.environment]; exact h))
  generalize (run s : StateM Machine _) machine = ended at hstages ⊢
  cases hstages with
  | notLoaded _ htold => exact htold.disk.mono fun _ => Or.inl
  | notRendered _ _ htold => exact htold.disk.mono fun _ => Or.inl
  | notWritten _ _ htold _ => exact (htelling htold).disk.mono fun _ => Or.inl
  | @written samples chart bytes target listed after _ _ _ hlisted hplace _ _ htold =>
      have hshown := htelling (p := chart.toPicture) hlisted
      have hfile := leaves_withFile (presented s chart.toPicture listed)
        (Disk.place?_ne_nil hplace) bytes
      have hsame := (hshown.leaves (· = target)).trans (hfile.trans (htold.leaves _))
      rw [hshown.tree.place?] at hplace
      exact (hsame.mono fun l hl => hl ▸ hplace).disk

/-! ## Main result -/

/-- Two runs on the same files, with the same input and the same size, whatever is shown and however
that ends: both end well, or in the same way badly. They leave the same at the output if they end
well. If they fail, they do so where the log goes elsewhere, unless neither of them can write its
picture there and one of them has left its preview. And a run that has nothing to show, or no
display, leaves all files alone but the output and the log. -/
theorem outcome_of_showing {s : Settings} {x y : Bool} {a b : Machine}
    (htwins : Twins s.paths.output a b)
    (hinput : (announced (s.withShown x) a).disk.read s.paths.input =
      (announced (s.withShown y) b).disk.read s.paths.input)
    (ha : a.ViewerSpares s.paths.output) (hb : b.ViewerSpares s.paths.output) :
    Alike s.paths.output ((run (s.withShown x) : StateM Machine _) a).1
        ((run (s.withShown y) : StateM Machine _) b).1 ∧
      (((run (s.withShown x) : StateM Machine _) a).1 = .ok () ∨
          a.LogApart s.paths.output ∧ b.LogApart s.paths.output ∧
            ((∀ e, ((run (s.withShown x) : StateM Machine _) a).1 ≠ .error (.write e)) ∨
              ¬Covers x a s.paths.output ∧ ¬Covers y b s.paths.output) →
        ((run (s.withShown x) : StateM Machine _) a).2.disk.content? s.paths.output =
          ((run (s.withShown y) : StateM Machine _) b).2.disk.content? s.paths.output) ∧
      (x = false ∨ hasDisplay a.environment = false →
        AgreeOff (fun l => a.openLog = some l ∨ a.disk.place? s.paths.output = some l)
          a.disk ((run (s.withShown x) : StateM Machine _) a).2.disk) := by
  have hleft := run_ends (s.withShown x) ha
  have hright := run_ends (s.withShown y) hb
  have haccepts : Accepts b.disk s.paths.output ↔ Accepts a.disk s.paths.output :=
    accepts_congr htwins.sameTree.resembles htwins.closed
  have hcontent : b.disk.content? s.paths.output = a.disk.content? s.paths.output :=
    congrArg Except.toOption (htwins.read s.paths.output)
  have hloaded : loaded (s.withShown y) b = loaded (s.withShown x) a := by
    unfold loaded
    exact congrArg (loadContent s.paths.input) hinput.symm
  have hsame : Ends s.paths s.canvasSize (loaded (s.withShown x) a)
      (Accepts a.disk s.paths.output) (b.LogApart s.paths.output) (Covers y b s.paths.output)
      (a.disk.content? s.paths.output) ((run (s.withShown y) : StateM Machine _) b).1
      (((run (s.withShown y) : StateM Machine _) b).2.disk.content? s.paths.output) := by
    rw [← hloaded, ← hcontent, ← propext haccepts]
    exact hright
  obtain ⟨halike, hkept⟩ := Ends.alike hleft hsame
  exact ⟨halike, hkept, agreeOff_of_quiet (s.withShown x)⟩

/-- A machine with a display, and with a viewer that ends badly. -/
def displayMachine : Machine where
  disk := {
    entries := [(["work"], .directory), (["tmp"], .directory), (["figures"], .directory),
      (["csv"], .directory),
      (["rehash_sizes.csv", "csv"], .file "insert size,rehash rounds\n100,2\n".toUTF8)]
    here := ["work"]
    sealed := []
    isFull := false }
  environment := [("DISPLAY", ":0")]
  viewer := some fun _ disk => (.exited 3, disk)
  logger := none
  printed := []
  complaints := []
  stamp := "00h 00m 00s"
  elapsed := "1.00ms"

/-- The same machine without a display, without a viewer, and with a sealed directory for temporary
files. -/
def sealedMachine : Machine :=
  { displayMachine with
    disk := { displayMachine.disk with sealed := [["tmp"]] }
    environment := []
    viewer := none }

theorem place?_figures :
    displayMachine.disk.place? Settings.default.paths.output = some ["rehash_rds.png", "figures"] :=
  Disk.place?_of_parts (Disk.checkPath_eq_ok_iff.mpr (by decide))
    (show Files.Path.parts "../figures/rehash_rds.png" =
      ["..", "figures"] ++ ["rehash_rds.png"] by decide)
    (by decide) (by decide) (by decide) rfl rfl

theorem preview_displayMachine : displayMachine.preview = some [previewName, "tmp"] :=
  Disk.place?_of_parts (Disk.checkPath_eq_ok_iff.mpr (by decide))
    (show Files.Path.parts "/tmp/rehash_rds.png" = ["", "tmp"] ++ [previewName] by decide)
    (by decide) (by decide) (by decide) rfl rfl

theorem display_sealed_twins :
    Twins Settings.default.paths.output displayMachine sealedMachine := by
  refine ⟨rfl, rfl, rfl, ?_⟩
  intro beside target hway
  have hdirectory : temporaryDirectory displayMachine.disk Settings.default.paths.output =
      "/work/../figures" := by decide
  have hwalk : displayMachine.disk.walk (displayMachine.disk.start "/work/../figures")
      (Files.Path.parts "/work/../figures") = .ok ["figures"] := rfl
  have hbeside := hway.walk
  rw [hdirectory, hwalk] at hbeside
  have htarget : target = ["rehash_rds.png", "figures"] :=
    Option.some.inj (hway.place.symm.trans place?_figures)
  rw [← Except.ok.inj hbeside, htarget]
  exact ⟨by decide, by decide⟩

/-- The preview goes to another directory than the picture, so both runs leave the same picture. -/
theorem display_sealed_alike :
    Twins Settings.default.paths.output displayMachine sealedMachine ∧
      Alike Settings.default.paths.output
        ((run (Settings.default.withShown true) : StateM Machine _) displayMachine).1
        ((run (Settings.default.withShown false) : StateM Machine _) sealedMachine).1 ∧
      ((run (Settings.default.withShown true) : StateM Machine _) displayMachine).2.disk.content?
          Settings.default.paths.output =
        ((run (Settings.default.withShown false) : StateM Machine _) sealedMachine).2.disk.content?
          Settings.default.paths.output := by
  have hinput := read_announced_twins (Settings.default.withShown true)
    (Settings.default.withShown false) Settings.default.paths.input display_sealed_twins
    (fun _ _ hopen => nomatch hopen) (fun _ _ hopen => nomatch hopen)
  have hdisplay : displayMachine.ViewerSpares Settings.default.paths.output := by
    intro viewer hviewer shown disk
    cases Option.some.inj hviewer
    exact .refl _ _ disk
  have hsealed : sealedMachine.ViewerSpares Settings.default.paths.output :=
    fun _ hviewer => nomatch hviewer
  have hclear : ¬Covers true displayMachine Settings.default.paths.output := by
    rintro ⟨⟨_, _, _, l, hpreview, hleads⟩, _⟩
    cases Option.some.inj (preview_displayMachine.symm.trans hpreview)
    have hother := Except.ok.inj (hleads.symm.trans (Disk.walk_of_place? place?_figures))
    exact absurd hother (by decide)
  have hclear' : ¬Covers false sealedMachine Settings.default.paths.output :=
    fun hcovers => nomatch hcovers.1.1
  have hlog : displayMachine.LogApart Settings.default.paths.output :=
    fun _ _ hopen => nomatch hopen
  have hlog' : sealedMachine.LogApart Settings.default.paths.output :=
    fun _ _ hopen => nomatch hopen
  obtain ⟨halike, hcontent, _⟩ := outcome_of_showing display_sealed_twins hinput hdisplay hsealed
  exact ⟨display_sealed_twins, halike, hcontent (.inr ⟨hlog, hlog', .inr ⟨hclear, hclear'⟩⟩)⟩

/-! ## Another way to the preview's file -/

def detour : Nat → String
  | 0 => "x/.."
  | n + 1 => "./" ++ detour n

theorem parts_detour (n : Nat) :
    Files.Path.parts (detour n) = List.replicate n "." ++ ["x", ".."] := by
  induction n with
  | zero => decide
  | succ n ih =>
      have hslash : detour (n + 1) = "." ++ "/" ++ detour n := rfl
      rw [hslash, Files.Path.parts_slash, ih, List.replicate_succ]
      rfl

theorem utf8ByteSize_detour (n : Nat) : (detour n).utf8ByteSize = 2 * n + 4 := by
  induction n with
  | zero => rfl
  | succ n ih =>
      rw [detour, String.utf8ByteSize_append, ih, show "./".utf8ByteSize = 2 from rfl]
      omega

theorem toList_detour (n : Nat) :
    '\x00' ∉ (detour n).toList ∧ ∃ rest, (detour n).toList.reverse = '.' :: '.' :: rest := by
  induction n with
  | zero => exact ⟨by decide, ['/', 'x'], rfl⟩
  | succ n ih =>
      obtain ⟨hnul, rest, hrest⟩ := ih
      refine ⟨?_, rest ++ ['/', '.'], ?_⟩
      · simp [detour, hnul]
      · simp [detour, hrest]

/-- A way of any length into the directory `preview`. -/
def longWay (n : Nat) : String := "preview" ++ "/" ++ detour n

def longPath (n : Nat) : String := longWay n ++ "/" ++ previewName

/-- A machine on which the preview goes into a directory of the working directory. -/
def localPreview : Machine :=
  { displayMachine with
    disk := {
      entries := [(["benchmarks"], .directory), (["preview", "benchmarks"], .directory),
        (["x", "preview", "benchmarks"], .directory),
        (["sizes.csv", "benchmarks"], .file "insert size,rehash rounds\n1,1\n".toUTF8)]
      here := ["benchmarks"]
      sealed := []
      isFull := false }
    environment := [("DISPLAY", ":0"), ("TMPDIR", "preview")]
    viewer := none }

def previewPlace : Location := [previewName, "preview", "benchmarks"]

theorem preview_localPreview : localPreview.preview = some previewPlace :=
  Disk.place?_of_parts (Disk.checkPath_eq_ok_iff.mpr (by decide))
    (show Files.Path.parts "preview/rehash_rds.png" = ["preview"] ++ [previewName] by decide)
    (by decide) (by decide) (by decide) rfl rfl

theorem accepts_preview : Accepts localPreview.disk (previewPath localPreview.environment) := by
  have hfree : localPreview.disk.at? previewPlace = none := rfl
  have hway : Way localPreview.disk (previewPath localPreview.environment) ["preview", "benchmarks"]
      previewPlace :=
    ⟨rfl, Disk.checkPath_eq_ok_iff.mpr (by decide), rfl, rfl, ⟨0, by decide, rfl⟩,
      preview_localPreview,
      by simp [hfree]⟩
  exact ⟨_, _, hway, List.not_mem_nil, List.not_mem_nil⟩

theorem utf8ByteSize_longWay (n : Nat) : (longWay n).utf8ByteSize = 2 * n + 12 := by
  rw [longWay, String.utf8ByteSize_append, String.utf8ByteSize_append, utf8ByteSize_detour,
    show "preview".utf8ByteSize = 7 from rfl, show "/".utf8ByteSize = 1 from rfl]
  omega

theorem checkPath_longPath {n : Nat} (h : 2 * n + 27 ≤ Disk.maxPath) :
    Disk.checkPath (longPath n) = .ok () := by
  refine Disk.checkPath_eq_ok_iff.mpr ⟨?_, ?_, ?_⟩
  · have hnul := (toList_detour n).1
    simp only [longPath, longWay, String.toList_append, List.mem_append, not_or]
    exact ⟨⟨⟨⟨by decide, by decide⟩, hnul⟩, by decide⟩, by decide⟩
  · intro hempty
    have hlist := congrArg String.toList hempty
    simp [longPath, longWay] at hlist
  · rw [longPath, String.utf8ByteSize_append, String.utf8ByteSize_append, utf8ByteSize_longWay,
      show "/".utf8ByteSize = 1 from rfl, show previewName.utf8ByteSize = 14 from rfl]
    omega

theorem place?_longPath {n : Nat} (h : 2 * n + 27 ≤ Disk.maxPath) :
    localPreview.disk.place? (longPath n) = some previewPlace := by
  have hparts : Files.Path.parts (longPath n) =
      "preview" :: (List.replicate n "." ++ ["x", ".."]) ++ [previewName] := by
    rw [longPath, Files.Path.parts_slash, longWay, Files.Path.parts_slash, parts_detour]
    rfl
  have hpreview : localPreview.disk.at? ["preview", "benchmarks"] = some .directory := rfl
  have hstart : localPreview.disk.start (longPath n) = ["benchmarks"] := by
    simp [Disk.start, Files.Path.isAbsolute, longPath, longWay, localPreview]
  have hwalk : localPreview.disk.walk (localPreview.disk.start (longPath n))
      ("preview" :: (List.replicate n "." ++ ["x", ".."])) = .ok ["preview", "benchmarks"] :=
    calc localPreview.disk.walk (localPreview.disk.start (longPath n))
          ("preview" :: (List.replicate n "." ++ ["x", ".."]))
      _ = localPreview.disk.walk ["preview", "benchmarks"]
          (List.replicate n "." ++ ["x", ".."]) := by
          rw [hstart, Disk.walk_cons]
          rfl
      _ = localPreview.disk.walk ["preview", "benchmarks"] ["x", ".."] :=
          Disk.walk_points hpreview n _
      _ = .ok ["preview", "benchmarks"] := rfl
  exact Disk.place?_of_parts (checkPath_longPath h) hparts (by decide) (by decide) (by decide)
    hwalk hpreview

theorem not_accepts_longPath {n : Nat} (h : Disk.maxPath < 2 * n + 33) :
    ¬Accepts localPreview.disk (longPath n) := by
  intro haccepts
  obtain ⟨beside, target, hway, _⟩ := haccepts
  have hne : longWay n ≠ "" := by
    intro hempty
    have hlist := congrArg String.toList hempty
    simp [longWay] at hlist
  have hfront :
      Files.Path.trimReversed (longWay n).toList.reverse = (longWay n).toList.reverse := by
    obtain ⟨rest, hrest⟩ := (toList_detour n).2
    rw [longWay, String.toList_append, List.reverse_append, hrest]
    rfl
  have hdirectory : Files.Path.directory (longPath n) = longWay n :=
    Files.Path.directory_slash (by decide)
      (show previewName.toList = "rehash_rds.pn".toList ++ ['g'] by decide) (by decide) hne hfront
  have hrelative : Files.Path.isAbsolute (longWay n) = false := by
    simp [Files.Path.isAbsolute, longWay]
  have hshort := (Disk.checkPath_eq_ok_iff.mp hway.short).2.2
  have htemporary : Files.Path.isAbsolute (temporaryName 0) = false := by decide
  have hlong := Files.Path.le_utf8ByteSize_join (pathOf localPreview.disk.here) hrelative
  have hlonger := Files.Path.le_utf8ByteSize_join
    (temporaryDirectory localPreview.disk (longPath n))
    htemporary
  have hhere : (pathOf localPreview.disk.here).utf8ByteSize = 11 := by decide
  have hname : (temporaryName 0).utf8ByteSize = 10 := by decide
  rw [utf8ByteSize_longWay, hhere] at hlong
  rw [hname] at hlonger
  rw [temporaryDirectory, hdirectory] at hlonger hshort
  omega

/-- A preview that can be written is there after the chart has been shown, whatever else comes of
it. -/
theorem content?_presented {s : Settings} {p : Png.Picture} {bytes : ByteArray} {path : String}
    {place : Location} {machine : Machine} (hshown : s.chart.shown = true)
    (hdisplay : hasDisplay machine.environment = true) (hviewer : machine.viewer = none)
    (hencode : encodePicture p = .ok bytes)
    (haccepts : Accepts machine.disk (previewPath machine.environment))
    (hpreview : machine.preview = some place) (hplace : machine.disk.place? path = some place) :
    (presented s p machine).disk.content? path = some bytes := by
  have hshows := shows_showPicture p machine
  have htold := told_present_true p machine
  unfold presented
  rw [hshown]
  generalize (showPicture p : StateM Machine _) machine = after at hshows htold
  cases hshows with
  | hidden hdisplay' _ =>
      rw [hdisplay] at hdisplay'
      cases hdisplay'
  | failed _ hwrite =>
      have hwritten := (writePicture_eq_ok_iff (previewPath machine.environment) p machine).mpr
        ⟨⟨bytes, hencode⟩, haccepts⟩
      rw [hwrite] at hwritten
      cases hwritten
  | viewed _ _ hencode' hplace' htarget =>
      rw [hencode] at hencode'
      cases hencode'
      cases Option.some.inj (hpreview.symm.trans hplace')
      have hview (shown : String) : ((Host.view shown : StateM Machine _)
          (machine.withFile place bytes)).2 = machine.withFile place bytes := by
        have hnone : (machine.withFile place bytes).viewer = none := hviewer
        simp only [Host.view, hnone]
      rw [hview] at htold
      exact Disk.content?_of_read (read_written hplace htarget htold).2

def onePixel : Settings := ⟨⟨"sizes.csv", longPath 2034⟩, ⟨1, 1, 1, false⟩, .default⟩

theorem loaded_localPreview (shown : Bool) :
    loaded (onePixel.withShown shown) localPreview = .ok [⟨1, 1⟩] := by
  have hread : (announced (onePixel.withShown shown) localPreview).disk.read "sizes.csv" =
      localPreview.disk.read "sizes.csv" :=
    read_announced (onePixel.withShown shown) fun _ _ hopen => nomatch hopen
  have hfile : localPreview.disk.read "sizes.csv" =
      .ok "insert size,rehash rounds\n1,1\n".toUTF8 := by
    have hpath : Disk.checkPath "sizes.csv" = .ok () := Disk.checkPath_eq_ok_iff.mpr (by decide)
    rw [Disk.read, Disk.locate, hpath]
    rfl
  unfold loaded
  rw [show (onePixel.withShown shown).paths.input = "sizes.csv" from rfl, hread, hfile]
  rfl

theorem isCanvas_onePixel : isCanvas onePixel.canvasSize.1 onePixel.canvasSize.2 = true := by
  decide +kernel

theorem viewerSpares_localPreview (path : String) : localPreview.ViewerSpares path :=
  fun _ hviewer => nomatch hviewer

theorem not_accepts_onePixel : ¬Accepts localPreview.disk onePixel.paths.output :=
  not_accepts_longPath (by decide)

theorem fails_onePixel (shown : Bool) :
    ∃ fault, ((run (onePixel.withShown shown) : StateM Machine _) localPreview).1 =
      .error (.write ⟨onePixel.paths.output, fault⟩) := by
  have hends := run_ends (onePixel.withShown shown) (viewerSpares_localPreview _)
  have hcanvas : isCanvas (onePixel.withShown shown).canvasSize.1
      (onePixel.withShown shown).canvasSize.2 = true := isCanvas_onePixel
  rw [loaded_localPreview shown] at hends
  generalize
    ((run (onePixel.withShown shown) : StateM Machine _) localPreview).2.disk.content? _ = after
    at hends
  generalize
    ((run (onePixel.withShown shown) : StateM Machine _) localPreview).1 = result at hends ⊢
  cases hends with
  | notLoaded hload => cases hload
  | notRendered _ hnot =>
      rw [hcanvas] at hnot
      cases hnot
  | @notWritten _ fault => exact ⟨fault, rfl⟩
  | written _ _ haccepts => exact absurd haccepts not_accepts_onePixel

theorem place?_onePixel : localPreview.disk.place? onePixel.paths.output = some previewPlace :=
  place?_longPath (by decide)

theorem content?_onePixel : localPreview.disk.content? onePixel.paths.output = none := by
  rw [Option.eq_none_iff_forall_ne_some]
  intro bytes hbytes
  obtain ⟨_, l, hleads, hfile⟩ := Disk.content?_eq_some_iff.mp hbytes
  cases Except.ok.inj (hleads.symm.trans (Disk.walk_of_place? place?_onePixel))
  have hfree : localPreview.disk.at? previewPlace = none := rfl
  rw [hfree] at hfile
  cases hfile

theorem nothing_without_preview :
    ((run (onePixel.withShown false) : StateM Machine _) localPreview).2.disk.content?
      onePixel.paths.output = none := by
  obtain ⟨fault, hfails⟩ := fails_onePixel false
  have hclear : ¬Covers false localPreview onePixel.paths.output := fun hcovers =>
    nomatch hcovers.1.1
  have hends := run_ends (onePixel.withShown false) (viewerSpares_localPreview _)
  rw [hfails] at hends
  generalize ((run (onePixel.withShown false) : StateM Machine _) localPreview).2.disk = after
    at hends ⊢
  cases hends with
  | notWritten _ _ _ hsame =>
      exact (hsame (fun _ _ hopen => nomatch hopen) hclear).trans content?_onePixel

theorem picture_of_preview :
    ∃ bytes picture,
      ((run (onePixel.withShown true) : StateM Machine _) localPreview).2.disk.content?
        onePixel.paths.output = some bytes ∧ Png.decode bytes = some picture := by
  obtain ⟨fault, hfails⟩ := fails_onePixel true
  have hstages := run_stages (onePixel.withShown true) localPreview
  generalize (run (onePixel.withShown true) : StateM Machine _) localPreview = ended
    at hstages hfails ⊢
  cases hstages with
  | notLoaded => cases hfails
  | notRendered => cases hfails
  | written => cases hfails
  | @notWritten samples chart listed _ _ hrender htold =>
      obtain ⟨bytes, hencode⟩ := encode_render hrender
      refine ⟨bytes, chart.toPicture, ?_, decode_of_encodePicture hencode⟩
      have hspared :
          Machine.Spares True (previewPath localPreview.environment) localPreview listed :=
        htold.spares fun hnot => absurd trivial hnot
      refine content?_presented rfl ?_ ?_ hencode ?_ (htold.preview.trans preview_localPreview)
        ((htold.tree.place? _).trans place?_onePixel)
      · rw [htold.environment]
        decide
      · rw [htold.viewer]
        rfl
      · rw [htold.environment]
        exact hspared.disk.accepts.mpr accepts_preview

/-- The runs that differ in nothing but whether the chart is shown. Neither of them can write its
picture, and the one that shows it leaves it at the output. -/
theorem preview_left_at_output :
    localPreview.viewer = none ∧ localPreview.openLog = none ∧
      (∃ fault, ((run (onePixel.withShown true) : StateM Machine _) localPreview).1 =
        .error (.write ⟨onePixel.paths.output, fault⟩)) ∧
      (∃ fault, ((run (onePixel.withShown false) : StateM Machine _) localPreview).1 =
        .error (.write ⟨onePixel.paths.output, fault⟩)) ∧
      ((run (onePixel.withShown false) : StateM Machine _) localPreview).2.disk.content?
        onePixel.paths.output = none ∧
      ∃ bytes picture,
        ((run (onePixel.withShown true) : StateM Machine _) localPreview).2.disk.content?
          onePixel.paths.output = some bytes ∧ Png.decode bytes = some picture :=
  ⟨rfl, rfl, fails_onePixel true, fails_onePixel false, nothing_without_preview, picture_of_preview⟩

end RehashChart
