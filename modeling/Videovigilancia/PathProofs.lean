import Videovigilancia.CompletionProofs
import Videovigilancia.GlpPackage
import Videovigilancia.Paths
import Videovigilancia.ServerConsole

/-! Where the images of a connection go. A path tells its frame, so no two frames
of one connection share it. It is meant to lie in the folder made for it, below
the output folder; the name comes from the peer, and is trusted. -/
namespace Videovigilancia.PathProofs
open ClientThread ImagePath Paths

variable {Image : Type} {qt : Qt Image}

/-! ## The path tells the frame -/

/-- Where the packages of a connection are saved, in order, the `i`-th on `today i`. -/
def savedPaths (out : QString) (today : Nat → QDate) (packages : List (Completed Image)) :
    List QString :=
  packages.zipIdx.map fun (c, i) => c.fullpath out (today i)

/-- What one key keeps apart, a finer one does. -/
theorem nodup_map_of_finer {α β γ : Type} {l : List α} {key : α → β} {finer : α → γ}
    (implies : ∀ a ∈ l, ∀ b ∈ l, finer a = finer b → key a = key b) (apart : (l.map key).Nodup) :
    (l.map finer).Nodup := by
  rw [List.Nodup, List.pairwise_map] at apart ⊢
  exact apart.imp_of_mem fun first second differ same => differ (implies _ first _ second same)

/-- Counters that have not run over are all different. -/
theorem counters_nodup (qt : Qt Image) (size count counter : Int32) (chunks : List QByteArray)
    (counted : ∀ c ∈ (run qt (create size count counter) chunks).completed,
      0 ≤ c.frameCounter_.toInt) :
    ((run qt (create size count counter) chunks).completed.map Completed.frameCounter_).Nodup := by
  have numbered := CompletionProofs.run_frames_numbered qt chunks (k := 0)
    (t := create size count counter) rfl
  generalize (run qt (create size count counter) chunks).completed = packages at counted numbered
  have short : packages.length ≤ 2 ^ 31 := by
    by_contra long
    have listed : Int32.ofNat (2 ^ 31) ∈ packages.map Completed.frameCounter_ := by
      rw [numbered]
      exact List.mem_map_of_mem (List.mem_range'_1.mpr (by omega))
    obtain ⟨c, member, overrun⟩ := List.mem_map.mp listed
    have negative := counted c member
    rw [overrun] at negative
    exact absurd negative (by decide)
  rw [numbered]
  refine List.Nodup.map_on (fun a inside b inside' same => ?_) List.nodup_range'
  rw [List.mem_range'_1] at inside inside'
  exact ofNat_inj (by omega) (by omega) same

/-- Where counters differ, what tells the counter differs. -/
theorem nodup_of_counters {γ : Type} {packages : List (Completed Image)}
    {saved : Completed Image × Nat → γ}
    (tells : ∀ first second, saved first = saved second →
      first.1.frameCounter_ = second.1.frameCounter_)
    (apart : (packages.map Completed.frameCounter_).Nodup) :
    (packages.zipIdx.map saved).Nodup := by
  have counters : packages.map Completed.frameCounter_ =
      packages.zipIdx.map fun entry => entry.1.frameCounter_ := by
    rw [← List.zipIdx_map_fst 0 packages, List.map_map]
    simp [Function.comp_def]
  rw [counters] at apart
  exact nodup_map_of_finer (fun first _ second _ same => tells first second same) apart

theorem savedPaths_nodup (out : QString) (today : Nat → QDate) {packages : List (Completed Image)}
    (apart : (packages.map Completed.frameCounter_).Nodup) :
    (savedPaths out today packages).Nodup := by
  refine nodup_of_counters (fun first second same => ?_) apart
  have widths : (dateText (today first.2)).length = (dateText (today second.2)).length := by
    rw [dateText_length, dateText_length]
  exact ((fullpath_inj widths).mp same).2.2

/-- A path determines the date, the counter and the name (with UNNAMED for the
empty one) of its frame, so that no two frames of one connection share it. -/
theorem path_determines_frame (qt : Qt Image) (out : QString) :
    (∀ (name name' : QString) (date date' : QDate) (frameCounter_ frameCounter_' : Int32),
      fullpath out name (dateText date) frameCounter_ =
          fullpath out name' (dateText date') frameCounter_' ↔
        date = date' ∧ frameCounter_ = frameCounter_' ∧ clientName name = clientName name') ∧
    ∀ (size count counter : Int32) (chunks : List QByteArray) (today : Nat → QDate),
      (∀ c ∈ (run qt (create size count counter) chunks).completed, 0 ≤ c.frameCounter_.toInt) →
        (savedPaths out today (run qt (create size count counter) chunks).completed).Nodup := by
  constructor
  · intro name name' date date' frameCounter_ frameCounter_'
    have widths : (dateText date).length = (dateText date').length := by
      rw [dateText_length, dateText_length]
    rw [fullpath_inj widths, dateText_injective.eq_iff]
    exact ⟨fun ⟨name, date, counter⟩ => ⟨date, counter, name⟩,
      fun ⟨date, counter, name⟩ => ⟨name, date, counter⟩⟩
  · intro size count counter chunks today counted
    exact savedPaths_nodup out today (counters_nodup qt size count counter chunks counted)

/-- Two packages of one name on two days, sent by one camera. -/
theorem path_determines_frame_twice : (savedPaths ['/']
    (fun i => if i = 0 then .newYear else ⟨2014, 1, 2, by decide, by decide, by decide⟩)
    (run Qt.reference (create 0 0 0) [Capture.sample.motionDetected true,
      Capture.sample.motionDetected true]).completed).Nodup :=
  (path_determines_frame Qt.reference ['/']).2 0 0 0 _ _ (by decide +kernel)

/-! ## The folder made for it -/

/-- The image goes to `outputDestination_/CLIENTNAME/DATE/FILE`, three plain names
below the output folder; the folder it goes to is the one that was made, and the database
is no file on the way to it, for which it could not have been made. -/
structure StoredBelow (destination name_ : QString) (date : QDate) (frameCounter_ : Int32) :
    Prop where
  folder : resolve '/' '.' (dirPath (Server.outputDestination destination) name_ (dateText date)) =
    resolve '/' '.' (Server.outputDestination destination) ++ [clientName name_, dateText date]
  file : resolve '/' '.'
      (fullpath (Server.outputDestination destination) name_ (dateText date) frameCounter_) =
    resolve '/' '.' (Server.outputDestination destination) ++
      [clientName name_, dateText date, filename name_ (dateText date) frameCounter_]
  below : ['.', '.'] ∉
    [clientName name_, dateText date, filename name_ (dateText date) frameCounter_]
  ensured : resolve '/' '.' (parent '/'
      (fullpath (Server.outputDestination destination) name_ (dateText date) frameCounter_)) =
    resolve '/' '.' (dirPath (Server.outputDestination destination) name_ (dateText date))
  free : ¬ resolve '/' '.' (Server.databasePath destination) <+:
    resolve '/' '.' (dirPath (Server.outputDestination destination) name_ (dateText date))

/-- A name that stays one folder. -/
def OneFolder (name : QString) : Prop := '/' ∉ name ∧ name ≠ ['.'] ∧ name ≠ ['.', '.']

/-- A text that is longer than two dots and has no separator is a plain name. -/
theorem plain_of_long {name : QString} (whole : '/' ∉ name) (long : 2 < name.length) :
    Plain '/' '.' name where
  some_char same := by simp [same] at long
  whole := whole
  not_dot same := by simp [same] at long
  not_dots same := by simp [same] at long

theorem oneFolder_clientName {name_ : QString} (plain : OneFolder name_) :
    Plain '/' '.' (clientName name_) := by
  unfold clientName
  split
  · exact plain_of_long (by decide) (by decide)
  · rename_i some_char
    exact ⟨⟨some_char, plain.1, plain.2.1⟩, plain.2.2⟩

theorem filename_plain {name_ : QString} (whole : '/' ∉ clientName name_) (date : QDate)
    (frameCounter_ : Int32) : Plain '/' '.' (filename name_ (dateText date) frameCounter_) := by
  apply plain_of_long
  · simp [filename, whole, slash_not_in_dateText, slash_not_in_frameText]
  · have := dateText_length date
    simp only [filename, List.length_append, List.length_cons]
    omega

/-- The output folder ends in a separator. -/
theorem outputDestination_ends (destination : QString) :
    ∃ base, Server.outputDestination destination = base ++ ['/'] := by
  unfold Server.outputDestination
  split
  · rename_i ends
    obtain ⟨base, same⟩ := ends
    exact ⟨base, same.symm⟩
  · exact ⟨destination, rfl⟩

theorem databaseName_plain : Plain '/' '.' Server.databaseName :=
  plain_of_long (by decide) (by decide)

/-- The database lies in the output folder. -/
theorem resolve_databasePath (destination : QString) :
    resolve '/' '.' (Server.databasePath destination) =
      resolve '/' '.' (Server.outputDestination destination) ++ [Server.databaseName] := by
  rw [Server.databasePath, resolve_file destination databaseName_plain, Server.outputDestination]
  split
  · rename_i ends
    rw [resolve_ends (by rintro rfl; simp at ends)]
  · rfl

/-- The folder of such a name leads through the database when the name is that of the
database. -/
theorem database_on_the_way {destination name_ : QString} {date : QDate}
    (folder : resolve '/' '.'
        (dirPath (Server.outputDestination destination) name_ (dateText date)) =
      resolve '/' '.' (Server.outputDestination destination) ++ [clientName name_, dateText date]) :
    resolve '/' '.' (Server.databasePath destination) <+: resolve '/' '.'
        (dirPath (Server.outputDestination destination) name_ (dateText date)) ↔
      name_ = Server.databaseName := by
  have named : clientName name_ = Server.databaseName ↔ name_ = Server.databaseName := by
    unfold clientName
    split
    · rename_i empty
      subst empty
      decide
    · rfl
  rw [resolve_databasePath, folder, List.prefix_append_right_inj, List.cons_prefix_cons, ← named]
  simp [eq_comm]

theorem dateText_plain (date : QDate) : Plain '/' '.' (dateText date) :=
  plain_of_long (slash_not_in_dateText date) (by rw [dateText_length]; omega)

/-- The folder of a name that stays one folder. -/
theorem resolve_dirPath (destination : QString) {name_ : QString} (plain : OneFolder name_)
    (date : QDate) :
    resolve '/' '.' (dirPath (Server.outputDestination destination) name_ (dateText date)) =
      resolve '/' '.' (Server.outputDestination destination) ++ [clientName name_, dateText date] := by
  obtain ⟨base, ends⟩ := outputDestination_ends destination
  have name := oneFolder_clientName plain
  have text : dirPath (base ++ ['/']) name_ (dateText date) =
      base ++ '/' :: ['/'].intercalate [clientName name_, dateText date] := by
    simp [dirPath, List.intercalate]
  rw [ends, text]
  exact resolve_below base (by simp [name, dateText_plain]) (by simp)

theorem storedBelow_of_oneFolder (destination : QString) {name_ : QString} (plain : OneFolder name_)
    (other : name_ ≠ Server.databaseName) (date : QDate) (frameCounter_ : Int32) :
    StoredBelow destination name_ date frameCounter_ := by
  obtain ⟨base, ends⟩ := outputDestination_ends destination
  have name := oneFolder_clientName plain
  have day := dateText_plain date
  have file := filename_plain name.whole date frameCounter_
  have folder := resolve_dirPath destination plain date
  have fileText : fullpath (base ++ ['/']) name_ (dateText date) frameCounter_ =
      base ++ '/' :: ['/'].intercalate
        [clientName name_, dateText date, filename name_ (dateText date) frameCounter_] := by
    simp [fullpath, dirPath, List.intercalate]
  refine ⟨folder, ?_, ?_, ?_, fun blocked => other ((database_on_the_way folder).mp blocked)⟩
  · rw [ends, fileText]
    exact resolve_below base (by simp [name, day, file]) (by simp)
  · simpa using ⟨name.not_dots.symm, day.not_dots.symm, file.not_dots.symm⟩
  · rw [fullpath, parent_append _ file.whole]

/-- The name of a client keeps its images in the folder made for them, below the
output folder, exactly when it has no separator and is neither `.` nor `..` nor the name
of the database. -/
theorem stored_below_iff (qt : Qt Image) (line : Line) (destination : QString) (date : QDate)
    (frameCounter_ : Int32) :
    StoredBelow destination (qt.fromUtf8 line.text) date frameCounter_ ↔
      OneFolder (qt.fromUtf8 line.text) ∧ qt.fromUtf8 line.text ≠ Server.databaseName := by
  refine ⟨fun stored => ?_, fun plain => storedBelow_of_oneFolder destination plain.1 plain.2 date _⟩
  generalize qt.fromUtf8 line.text = name_ at stored ⊢
  refine ⟨?_, fun same => stored.free ((database_on_the_way stored.folder).mpr same)⟩
  have entered : clientName name_ ∈ resolve '/' '.'
      (dirPath (Server.outputDestination destination) name_ (dateText date)) := by
    rw [stored.folder]
    simp
  have proper := resolve_proper _ _ entered
  have not_dots : clientName name_ ≠ ['.', '.'] := fun same => stored.below (by simp [same])
  by_cases empty : name_ = []
  · simp [OneFolder, empty]
  · rw [clientName, if_neg empty] at proper not_dots
    exact ⟨proper.whole, proper.not_dot, not_dots⟩

/-- A client that calls itself `..` has its images stored beside the output folder. -/
theorem dots_escape : resolve '/' '.' (fullpath (Server.outputDestination "/srv".toList)
      (Qt.reference.fromUtf8 [46, 46]) (dateText .newYear) 0) =
        ["2014-01-01".toList, ".._2014-01-01_0000.png".toList] ∧
    ¬ StoredBelow "/srv".toList (Qt.reference.fromUtf8 [46, 46]) .newYear 0 := by
  refine ⟨by decide +kernel, fun stored => ?_⟩
  exact stored.below (by decide +kernel)

/-! ## Whatever the name is -/

/-- The end of `filename`, behind the name. -/
def stamp (date : QDate) (frameCounter_ : Int32) : QString :=
  '_' :: (dateText date ++ '_' :: (frameText frameCounter_ ++ ".png".toList))

theorem slash_not_in_stamp (date : QDate) (frameCounter_ : Int32) : '/' ∉ stamp date frameCounter_ := by
  simp [stamp, slash_not_in_dateText, slash_not_in_frameText]

/-- A stamp tells its date and its counter, whatever stands in front of it. -/
theorem stamp_inj {front front' : QString} {date date' : QDate} {n n' : Int32}
    (same : front ++ stamp date n = front' ++ stamp date' n') : date = date' ∧ n = n' := by
  have split (front : QString) (date : QDate) (n : Int32) : front ++ stamp date n =
      (front ++ '_' :: dateText date) ++ '_' :: frameText n ++ ".png".toList := by
    simp [stamp]
  rw [split, split] at same
  obtain ⟨dates, counters⟩ := append_separator_inj (underscore_not_in_frameText n)
    (underscore_not_in_frameText n') (List.append_cancel_right same)
  have widths : ('_' :: dateText date).length = ('_' :: dateText date').length := by
    simp [dateText_length]
  obtain ⟨-, rest⟩ := List.append_inj' dates widths
  exact ⟨dateText_injective (List.cons.inj rest).2, frameText_injective counters⟩

/-- The path of an image in front of its stamp. -/
def unstamped (out name_ : QString) (date : QDate) : QString :=
  dirPath out name_ (dateText date) ++ '/' :: clientName name_

/-- The folder that an image goes to, which is not the one made for it where the name has
a separator in it. -/
def imageFolder (out name_ : QString) (date : QDate) : List QString :=
  resolve '/' '.' (parent '/' (unstamped out name_ date) ++ ['/'])

/-- The file of an image ends in its stamp, whatever its name holds. -/
theorem resolve_fullpath (out name_ : QString) (date : QDate) (frameCounter_ : Int32) :
    resolve '/' '.' (fullpath out name_ (dateText date) frameCounter_) =
      imageFolder out name_ date ++ [last '/' (clientName name_) ++ stamp date frameCounter_] := by
  have separated : '/' ∈ unstamped out name_ date := by simp [unstamped]
  have path : fullpath out name_ (dateText date) frameCounter_ = parent '/' (unstamped out name_ date) ++
      '/' :: (last '/' (clientName name_) ++ stamp date frameCounter_) := by
    calc fullpath out name_ (dateText date) frameCounter_
        = unstamped out name_ date ++ stamp date frameCounter_ := by
          simp [fullpath, filename, stamp, unstamped]
      _ = parent '/' (unstamped out name_ date) ++ '/' :: last '/' (unstamped out name_ date) ++
            stamp date frameCounter_ := by rw [parent_last separated]
      _ = _ := by simp [unstamped, last_append]
  have plain : Plain '/' '.' (last '/' (clientName name_) ++ stamp date frameCounter_) := by
    refine plain_of_long (by simp [not_mem_last, slash_not_in_stamp]) ?_
    have := dateText_length date
    simp only [stamp, List.length_append, List.length_cons]
    omega
  rw [path, resolve_file _ plain, imageFolder]

/-- No image leads to the database. -/
theorem resolve_ne_databasePath (out name_ : QString) (date : QDate) (frameCounter_ : Int32)
    (destination : QString) : resolve '/' '.' (fullpath out name_ (dateText date) frameCounter_) ≠
      resolve '/' '.' (Server.databasePath destination) := by
  intro same
  rw [resolve_fullpath, resolve_databasePath] at same
  have png : last '/' (clientName name_) ++ stamp date frameCounter_ =
      last '/' (clientName name_) ++
        '_' :: (dateText date ++ '_' :: (frameText frameCounter_ ++ ".pn".toList)) ++ ['g'] := by
    simp [stamp]
  have ends := congrArg List.getLast? (png.symm.trans (List.append_singleton_inj.mp same).2)
  rw [List.getLast?_concat] at ends
  exact absurd ends (by decide)

/-- Images lead to one file exactly when they go to one folder, under names with the same
end, on one day and with one counter. -/
theorem resolve_fullpath_inj {out name name' : QString} {date date' : QDate} {n n' : Int32} :
    resolve '/' '.' (fullpath out name (dateText date) n) =
        resolve '/' '.' (fullpath out name' (dateText date') n') ↔
      imageFolder out name date = imageFolder out name' date' ∧
        last '/' (clientName name) = last '/' (clientName name') ∧ date = date' ∧ n = n' := by
  rw [resolve_fullpath, resolve_fullpath, List.append_singleton_inj]
  constructor
  · rintro ⟨folders, files⟩
    obtain ⟨rfl, rfl⟩ := stamp_inj files
    exact ⟨folders, List.append_cancel_right files, rfl, rfl⟩
  · rintro ⟨folders, words, rfl, rfl⟩
    exact ⟨folders, by rw [words]⟩

/-- An image of a client with a folder of its own goes there. -/
theorem imageFolder_oneFolder (destination : QString) {name_ : QString} (plain : OneFolder name_)
    (date : QDate) : imageFolder (Server.outputDestination destination) name_ date =
      resolve '/' '.' (Server.outputDestination destination) ++ [clientName name_, dateText date] := by
  rw [imageFolder, unstamped, parent_append _ (oneFolder_clientName plain).whole,
    resolve_ends (by simp [dirPath]), resolve_dirPath destination plain]

/-- The files the images of a connection are saved as, wherever their paths lead. -/
def savedFiles (destination : QString) (today : Nat → QDate) (packages : List (Completed Image)) :
    List (List QString) :=
  (savedPaths (Server.outputDestination destination) today packages).map (resolve '/' '.')

theorem savedFiles_nodup (destination : QString) (today : Nat → QDate)
    {packages : List (Completed Image)} (apart : (packages.map Completed.frameCounter_).Nodup) :
    (savedFiles destination today packages).Nodup := by
  rw [savedFiles, savedPaths, List.map_map]
  exact nodup_of_counters (fun _ _ same => (resolve_fullpath_inj.mp same).2.2.2) apart

/-- No image replaces another one of its connection or the database of the server,
whatever the client calls itself, and if every package has another name. -/
theorem files_apart (qt : Qt Image) (destination : QString) (today : Nat → QDate)
    (size count counter : Int32) (chunks : List QByteArray)
    (counted : ∀ c ∈ (run qt (create size count counter) chunks).completed,
      0 ≤ c.frameCounter_.toInt) :
    let files := savedFiles destination today (run qt (create size count counter) chunks).completed
    files.Nodup ∧ resolve '/' '.' (Server.databasePath destination) ∉ files := by
  refine ⟨savedFiles_nodup destination today (counters_nodup qt size count counter chunks counted),
    fun replaced => ?_⟩
  obtain ⟨path, saved, same⟩ := List.mem_map.mp replaced
  obtain ⟨⟨c, i⟩, -, rfl⟩ := List.mem_map.mp saved
  exact resolve_ne_databasePath _ _ _ _ destination same

/-- A camera that calls itself `..` sends two packages. -/
theorem files_apart_dots :
    let files := savedFiles "/srv".toList (fun _ => .newYear) (run Qt.reference (create 0 0 0)
      [{ Capture.sample with clientName_ := ['.', '.'] }.motionDetected true,
        { Capture.sample with clientName_ := ['.', '.'] }.motionDetected true]).completed
    files.Nodup ∧ resolve '/' '.' (Server.databasePath "/srv".toList) ∉ files :=
  files_apart Qt.reference "/srv".toList (fun _ => .newYear) 0 0 0 _ (by decide +kernel)

end Videovigilancia.PathProofs
