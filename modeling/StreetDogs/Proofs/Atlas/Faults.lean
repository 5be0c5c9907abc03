import StreetDogs.Proofs.Atlas.Description
import StreetDogs.Proofs.Atlas.RoundTrip
import StreetDogs.Proofs.Registry.Directory

/-!
# The faults of a document of maps

The faults of a document stand in one list, in the order in which they count: the
default speed, and then the maps one after the other.  A document without faults
makes its maps, and a game over them.  Every other document is refused with the
first of its faults.
-/

namespace StreetDogs

/-- The outcome is a success if there are no faults, and the first fault otherwise. -/
def ReportsFirst {ε α : Type} (faults : List ε) : Except ε α → Prop
  | .ok _ => faults = []
  | .error fault => faults.head? = some fault

namespace ReportsFirst

variable {ε ε' α β : Type} {faults more : List ε} {outcome : Except ε α}

theorem bind {next : α → Except ε β} (h : ReportsFirst faults outcome)
    (hnext : ∀ a, outcome = .ok a → ReportsFirst more (next a)) :
    ReportsFirst (faults ++ more) (outcome >>= next) := by
  cases outcome with
  | error fault =>
      rw [ReportsFirst] at h
      change (faults ++ more).head? = some fault
      rw [List.head?_append, h, Option.some_or]
  | ok a =>
      obtain rfl : faults = [] := h
      exact hnext a rfl

theorem map (f : α → β) (h : ReportsFirst faults outcome) :
    ReportsFirst faults (outcome.map f) := by
  cases outcome with
  | error fault => exact h
  | ok a => exact h

theorem mapError (change : ε → ε') (h : ReportsFirst faults outcome) :
    ReportsFirst (faults.map change) (outcome.mapError change) := by
  cases outcome with
  | error fault =>
      rw [ReportsFirst] at h
      change (faults.map change).head? = some (change fault)
      rw [List.head?_map, h, Option.map_some]
  | ok a => exact List.map_eq_nil_iff.mpr h

theorem exists_ok_iff (h : ReportsFirst faults outcome) :
    (∃ a, outcome = .ok a) ↔ faults = [] := by
  cases outcome with
  | error fault =>
      refine iff_of_false nofun fun hnil => ?_
      rw [ReportsFirst, hnil] at h
      cases h
  | ok a => exact iff_of_true ⟨a, rfl⟩ h

theorem eq_error_iff (h : ReportsFirst faults outcome) (fault : ε) :
    outcome = .error fault ↔ faults.head? = some fault := by
  cases outcome with
  | error found => rw [Except.error.injEq, show faults.head? = some found from h, Option.some_inj]
  | ok a =>
      obtain rfl : faults = [] := h
      exact iff_of_false nofun nofun

end ReportsFirst

/-- The entries of a list, each with `before` and the entries of the list before it. -/
def withEarlier {α : Type} (before : List α) : List α → List (List α × α)
  | [] => []
  | entry :: entries => (before, entry) :: withEarlier (before ++ [entry]) entries

/-- No name repeats exactly if no entry has the name of an earlier one. -/
theorem nodup_append_iff {α : Type} (name : α → String) (before entries : List α) :
    ((before ++ entries).map name).Nodup ↔ (before.map name).Nodup ∧
      ∀ entry ∈ withEarlier before entries, name entry.2 ∉ entry.1.map name := by
  induction entries generalizing before with
  | nil => simp [withEarlier]
  | cons entry entries ih =>
      have hlast : ((before ++ [entry]).map name).Nodup ↔
          (before.map name).Nodup ∧ name entry ∉ before.map name := by
        rw [List.map_append, List.map_singleton, ← List.concat_eq_append, List.nodup_concat,
          and_comm]
      rw [List.append_cons, ih, hlast, withEarlier, List.forall_mem_cons, and_assoc]

theorem forall_mem_withEarlier {α : Type} {p : α → Prop} (before entries : List α) :
    (∀ entry ∈ withEarlier before entries, p entry.2) ↔ ∀ entry ∈ entries, p entry := by
  induction entries generalizing before with
  | nil => simp [withEarlier]
  | cons entry entries ih => rw [withEarlier, List.forall_mem_cons, List.forall_mem_cons, ih]

def repeats (names : List String) : List String :=
  ((withEarlier [] names).filter fun entry => entry.2 ∈ entry.1).map (·.2)

theorem repeats_eq_nil_iff (names : List String) : repeats names = [] ↔ names.Nodup := by
  have h := nodup_append_iff id [] names
  simp only [List.nil_append, List.map_id_fun, List.map_nil, List.nodup_nil, id, true_and] at h
  rw [h, repeats, List.map_eq_nil_iff, List.filter_eq_nil_iff]
  simp only [decide_eq_true_eq]

/-- The search that remembers names finds the first that repeats an earlier one. -/
theorem firstRepeat?_eq_head? (names : List String) :
    firstRepeat? [] names = (repeats names).head? := by
  suffices h : ∀ seen before : List String, (∀ name, name ∈ seen ↔ name ∈ before) →
      firstRepeat? seen names =
        (((withEarlier before names).filter fun entry => entry.2 ∈ entry.1).map (·.2)).head? from
    h [] [] fun _ => Iff.rfl
  induction names with
  | nil => exact fun _ _ _ => rfl
  | cons name names ih =>
      intro seen before hseen
      rw [firstRepeat?, withEarlier, List.filter_cons]
      by_cases hname : name ∈ before
      · rw [if_pos ((hseen name).mpr hname), if_pos (decide_eq_true hname)]
        rfl
      · rw [if_neg (mt (hseen name).mp hname), if_neg (mt of_decide_eq_true hname)]
        refine ih _ _ fun other => ?_
        rw [List.mem_cons, hseen, List.mem_append, List.mem_singleton, or_comm]

theorem usableSpeed_iff (speed : Float) :
    usableSpeed speed = true ↔ speed.isFinite = true ∧ ¬ speed < 0.0 := by
  rw [usableSpeed, Bool.and_eq_true, Bool.not_eq_true', decide_eq_false_iff_not]

def unusable (speed : Option Float) : List Float := speed.toList.filter (!usableSpeed ·)

theorem unusable_some (speed : Float) :
    unusable (some speed) = if usableSpeed speed then [] else [speed] := by
  rw [unusable, Option.toList_some, List.filter_singleton]
  cases usableSpeed speed <;> rfl

theorem unusable_eq_nil_iff (speed : Option Float) :
    unusable speed = [] ↔ ∀ x ∈ speed, x.isFinite = true ∧ ¬ x < 0.0 := by
  rw [unusable, List.filter_eq_nil_iff]
  simp only [Bool.not_eq_true', Bool.not_eq_false, usableSpeed_iff, Option.mem_toList,
    Option.mem_def]

def RoadRecord.HasEnd (record : RoadRecord) : Prop := record.x1.isSome ∨ record.y1.isSome

instance (record : RoadRecord) : Decidable record.HasEnd :=
  inferInstanceAs (Decidable (_ ∨ _))

theorem RoadRecord.isSome_toRoad?_iff (record : RoadRecord) :
    record.toRoad?.isSome ↔ record.HasEnd := by
  obtain ⟨x0, y0, x1, y1⟩ := record
  cases x1 <;> cases y1 <;> simp [toRoad?, HasEnd]

namespace MapRecord

def openRoads (record : MapRecord) : List ℕ :=
  (record.roads.zipIdx.filter fun road => ¬ road.1.HasEnd).map (·.2)

/-- The rules of maps that the description breaks. -/
def brokenRules (record : MapRecord) : List StreetMapError :=
  (if record.roads = [] then [.noRoads record.id] else []) ++
    (repeats (record.offices.map (·.id))).map (.duplicateOffice record.id ·) ++
    (unusable record.dogSpeed).map (.invalidSpeed record.id ·)

def faults (record : MapRecord) : List LoadError :=
  record.openRoads.map (.roadWithoutEnd record.id ·) ++ record.brokenRules.map .invalidMap

/-- The faults of the description of a map that comes after the maps `earlier`. -/
def faultsAfter (earlier : List MapRecord) (record : MapRecord) : List LoadError :=
  (if record.id ∈ earlier.map (·.id) then [.duplicateMap record.id] else []) ++ record.faults

/-- What the description of a map has to obey. -/
structure Valid (record : MapRecord) : Prop where
  roads_ne_nil : record.roads ≠ []
  hasEnd : ∀ road ∈ record.roads, road.HasEnd
  offices_nodup : (record.offices.map (·.id)).Nodup
  dogSpeed : ∀ speed ∈ record.dogSpeed, speed.isFinite = true ∧ ¬ speed < 0.0

end MapRecord

namespace Atlas

/-- The faults of a document: the default speed, and then map by map an identifier
that an earlier map has and the faults of the map itself. -/
def faults (atlas : Atlas) : List LoadError :=
  (unusable atlas.defaultDogSpeed).map .invalidDefaultSpeed ++
    (withEarlier [] atlas.maps).flatMap fun entry => entry.2.faultsAfter entry.1

/-- What a document has to obey. -/
structure Valid (atlas : Atlas) : Prop where
  defaultSpeed : (atlas.defaultDogSpeed.getD 1.0).isFinite = true ∧
    ¬ atlas.defaultDogSpeed.getD 1.0 < 0.0
  ids_nodup : (atlas.maps.map (·.id)).Nodup
  maps : ∀ record ∈ atlas.maps, record.Valid

end Atlas

private theorem ite_singleton_eq_nil_iff {α : Type} {p : Prop} [Decidable p] {a : α} :
    (if p then [a] else []) = [] ↔ ¬ p := by
  split <;> simp_all

theorem MapRecord.openRoads_eq_nil_iff (record : MapRecord) :
    record.openRoads = [] ↔ ∀ road ∈ record.roads, road.HasEnd := by
  rw [openRoads, List.map_eq_nil_iff, List.filter_eq_nil_iff]
  simp only [decide_eq_true_eq, not_not]
  rw [← List.forall_mem_map (f := Prod.fst), List.zipIdx_map_fst]

theorem MapRecord.faults_eq_nil_iff (record : MapRecord) : record.faults = [] ↔ record.Valid := by
  rw [faults, brokenRules]
  simp only [List.append_eq_nil_iff, List.map_eq_nil_iff, openRoads_eq_nil_iff,
    ite_singleton_eq_nil_iff, repeats_eq_nil_iff, unusable_eq_nil_iff]
  constructor
  · rintro ⟨hends, ⟨hroads, hoffices⟩, hspeed⟩
    exact ⟨hroads, hends, hoffices, hspeed⟩
  · rintro ⟨hroads, hends, hoffices, hspeed⟩
    exact ⟨hends, ⟨hroads, hoffices⟩, hspeed⟩

/-- Exactly the valid documents have no faults. -/
theorem Atlas.faults_eq_nil_iff (atlas : Atlas) : atlas.faults = [] ↔ atlas.Valid := by
  have hdefault : (∀ x ∈ atlas.defaultDogSpeed, x.isFinite = true ∧ ¬ x < 0.0) ↔
      (atlas.defaultDogSpeed.getD 1.0).isFinite = true ∧
        ¬ atlas.defaultDogSpeed.getD 1.0 < 0.0 := by
    cases atlas.defaultDogSpeed with
    | none => exact iff_of_true nofun (by decide +kernel)
    | some speed => simp
  have hids := nodup_append_iff (fun record : MapRecord => record.id) [] atlas.maps
  simp only [List.nil_append, List.map_nil, List.nodup_nil, true_and] at hids
  have hmaps := forall_mem_withEarlier (p := MapRecord.Valid) [] atlas.maps
  rw [faults, List.append_eq_nil_iff, List.map_eq_nil_iff, unusable_eq_nil_iff, hdefault,
    List.flatMap_eq_nil_iff]
  simp only [MapRecord.faultsAfter, List.append_eq_nil_iff, ite_singleton_eq_nil_iff,
    MapRecord.faults_eq_nil_iff, forall_and]
  rw [← hids, hmaps]
  exact ⟨fun ⟨hspeed, hnodup, hvalid⟩ => ⟨hspeed, hnodup, hvalid⟩,
    fun ⟨hspeed, hnodup, hvalid⟩ => ⟨hspeed, hnodup, hvalid⟩⟩

/-! ## The first fault -/

namespace MapRecord

theorem reportsFirst_toRoads (index : ℕ) (records : List RoadRecord) :
    ReportsFirst (((records.zipIdx index).filter fun road => ¬ road.1.HasEnd).map (·.2))
      (toRoads index records) := by
  induction records generalizing index with
  | nil => rfl
  | cons record records ih =>
      rw [toRoads, List.zipIdx_cons, List.filter_cons]
      have hend := record.isSome_toRoad?_iff
      cases hroad : record.toRoad? with
      | none =>
          rw [hroad] at hend
          rw [if_pos (decide_eq_true (mt hend.mpr Bool.false_ne_true))]
          rfl
      | some road =>
          rw [hroad] at hend
          rw [if_neg (by simpa using hend.mp rfl)]
          exact (ih (index + 1)).map _

/-- The rules of maps are checked in the order in which they are listed. -/
theorem reportsFirst_new (record : MapRecord) {roads : List Road} (buildings : List Building)
    (hroads : roads = [] ↔ record.roads = []) :
    ReportsFirst record.brokenRules
      (StreetMap.new record.id record.name roads buildings (record.offices.map (·.toOffice))
        record.dogSpeed) := by
  have hids : (record.offices.map (·.toOffice)).map (·.id) = record.offices.map (·.id) :=
    List.map_map
  rw [StreetMap.new]
  split
  · next hnil =>
      rw [brokenRules, if_pos (hroads.mp hnil)]
      rfl
  · next hne =>
      rw [brokenRules, if_neg (mt hroads.mpr hne), List.nil_append]
      split
      · next office hoffice =>
          rw [hids, firstRepeat?_eq_head?] at hoffice
          rw [ReportsFirst, List.head?_append, List.head?_map, hoffice]
          rfl
      · next hnone =>
          rw [hids, firstRepeat?_eq_head?, List.head?_eq_none_iff] at hnone
          rw [hnone, List.map_nil, List.nil_append]
          split
          · next hspeed =>
              rw [hspeed]
              rfl
          · next speed hspeed =>
              rw [hspeed, unusable_some]
              by_cases husable : usableSpeed speed = true
              · rw [dif_pos husable, if_pos husable]
                rfl
              · rw [dif_neg husable, if_neg husable]
                rfl

theorem reportsFirst_toMap (record : MapRecord) : ReportsFirst record.faults record.toMap := by
  refine ((reportsFirst_toRoads 0 record.roads).mapError _).bind fun roads hroads => ?_
  have hdescribes : List.Forall₂ RoadRecord.Describes record.roads roads :=
    toRoads_eq_ok_iff.mp (mapError_eq_ok_iff.mp hroads)
  have hnil : roads = [] ↔ record.roads = [] := by
    rw [← List.length_eq_zero_iff, ← hdescribes.length_eq, List.length_eq_zero_iff]
  exact (reportsFirst_new record _ hnil).mapError _

end MapRecord

namespace Atlas

theorem reportsFirst_defaultSpeed (speed : Option Float) :
    ReportsFirst ((unusable speed).map .invalidDefaultSpeed) (defaultSpeed speed) := by
  cases speed with
  | none => rfl
  | some speed =>
      rw [defaultSpeed, unusable_some]
      split
      · rfl
      · rfl

theorem reportsFirst_toMaps {seen : List MapId} {before : List MapRecord} (records : List MapRecord)
    (hseen : ∀ id, id ∈ seen ↔ id ∈ before.map (·.id)) :
    ReportsFirst ((withEarlier before records).flatMap fun entry => entry.2.faultsAfter entry.1)
      (toMaps seen records) := by
  induction records generalizing seen before with
  | nil => rfl
  | cons record records ih =>
      rw [toMaps, withEarlier, List.flatMap_cons, MapRecord.faultsAfter]
      by_cases hid : record.id ∈ before.map (·.id)
      · rw [if_pos ((hseen _).mpr hid), if_pos hid]
        rfl
      · rw [if_neg (mt (hseen _).mp hid), if_neg hid, List.nil_append]
        refine (MapRecord.reportsFirst_toMap record).bind fun map _ => (ih fun id => ?_).map _
        rw [List.mem_cons, hseen, List.map_append, List.mem_append, List.map_singleton,
          List.mem_singleton, or_comm]

/-- A document loads if it has no faults, and its first fault is the error otherwise. -/
theorem reportsFirst_load (atlas : Atlas) : ReportsFirst atlas.faults atlas.load :=
  (reportsFirst_defaultSpeed atlas.defaultDogSpeed).bind fun _ _ =>
    (reportsFirst_toMaps atlas.maps fun _ => Iff.rfl).map _

theorem parse_of_decode {text : String} {atlas : Atlas} (h : decoder.decode text = .ok atlas) :
    parse text = atlas.load := by
  rw [parse, h]

end Atlas

namespace Atlas

theorem defaultSpeed_eq_ok {speed : Option Float} {found : Float}
    (h : defaultSpeed speed = .ok found) : found = speed.getD 1.0 := by
  cases speed with
  | none => exact (Except.ok.inj h).symm
  | some speed =>
      rw [defaultSpeed] at h
      split at h
      · exact (Except.ok.inj h).symm
      · cases h

/-- The maps stand in the order of their descriptions. -/
theorem describes_of_toMaps {seen : List MapId} {records : List MapRecord} {maps : List StreetMap}
    (h : toMaps seen records = .ok maps) : List.Forall₂ MapRecord.Describes records maps := by
  induction records generalizing seen maps with
  | nil =>
      obtain rfl := Except.ok.inj h
      exact .nil
  | cons record records ih =>
      rw [toMaps] at h
      split at h
      · cases h
      · obtain ⟨map, hmap, h⟩ := Json.Decoder.bind_eq_ok.mp h
        obtain ⟨rest, hrest, h⟩ := Json.Decoder.bind_eq_ok.mp h
        obtain rfl := Except.ok.inj h
        exact .cons (MapRecord.toMap_eq_ok_iff.mp hmap) (ih hrest)

theorem describes_of_load {atlas : Atlas} {loaded : LoadedMaps} (h : atlas.load = .ok loaded) :
    loaded.defaultDogSpeed = atlas.defaultDogSpeed.getD 1.0 ∧
      List.Forall₂ MapRecord.Describes atlas.maps loaded.maps := by
  obtain ⟨speed, hspeed, h⟩ := Json.Decoder.bind_eq_ok.mp h
  obtain ⟨maps, hmaps, h⟩ := Json.Decoder.bind_eq_ok.mp h
  obtain rfl := Except.ok.inj h
  exact ⟨defaultSpeed_eq_ok hspeed, describes_of_toMaps hmaps⟩

end Atlas

/-- The identifiers of maps are those of their descriptions. -/
theorem MapRecord.ids_eq {records : List MapRecord} {maps : List StreetMap}
    (h : List.Forall₂ Describes records maps) : maps.map (·.id) = records.map (·.id) :=
  map_eq_of_forall₂ (fun _ _ hdescribes => hdescribes.id_eq) h

/-- Maps with distinct identifiers make a game. -/
theorem Game.exists_ofLoaded {loaded : LoadedMaps} (hnodup : (loaded.maps.map (·.id)).Nodup)
    (settings : GameSettings) (entropy : Supply UInt64) (tokens : Supply Token) :
    ∃ game, ofLoaded loaded settings entropy tokens = .ok game := by
  obtain ⟨directory, hdirectory⟩ := Directory.exists_ofIds hnodup
  rw [ofLoaded, Game.new, hdirectory]
  exact ⟨_, rfl⟩

namespace Atlas

/-- A text that holds a document loads exactly if the document is valid.  The maps
then stand in the order of the document with exactly its contents, and they make a
game under all settings.  Otherwise the error is the first fault of the document. -/
theorem parse_reportsFirst {text : String} {atlas : Atlas}
    (hdecode : decoder.decode text = .ok atlas) :
    ((∃ loaded, parse text = .ok loaded) ↔ atlas.Valid) ∧
    (∀ loaded, parse text = .ok loaded →
      loaded.defaultDogSpeed = atlas.defaultDogSpeed.getD 1.0 ∧
      List.Forall₂ MapRecord.Describes atlas.maps loaded.maps ∧
      ∀ settings entropy tokens, ∃ game,
        Game.ofLoaded loaded settings entropy tokens = .ok game) ∧
    ∀ error, parse text = .error error ↔ atlas.faults.head? = some error := by
  rw [parse_of_decode hdecode]
  have hfirst := reportsFirst_load atlas
  have hvalid : (∃ loaded, atlas.load = .ok loaded) ↔ atlas.Valid :=
    hfirst.exists_ok_iff.trans atlas.faults_eq_nil_iff
  refine ⟨hvalid, fun loaded hloaded => ?_, hfirst.eq_error_iff⟩
  obtain ⟨hspeed, hmaps⟩ := describes_of_load hloaded
  refine ⟨hspeed, hmaps, Game.exists_ofLoaded ?_⟩
  rw [MapRecord.ids_eq hmaps]
  exact (hvalid.mp ⟨loaded, hloaded⟩).ids_nodup

theorem decode_text (atlas : Atlas) (hspeeds : ∀ x ∈ atlas.speeds, Json.ReadsBack x) :
    decoder.decode atlas.toJson.text = .ok atlas := by
  rw [Json.Decoder.decode_text]
  exact decoder_node hspeeds

def plain : Atlas where
  maps := [.crooked]

def muddled : Atlas where
  maps := [.crooked, {
    id := "crooked"
    name := "Open"
    dogSpeed := some (-1.0)
    roads := [⟨0, 0, some 1, none⟩, ⟨2, 0, none, none⟩]
    offices := [⟨"a", 0, 0, 0, 0⟩, ⟨"a", 1, 0, 0, 0⟩] }]

theorem parse_reportsFirst_muddled :
    (∃ loaded, parse plain.toJson.text = .ok loaded ∧ loaded.defaultDogSpeed = 1.0) ∧
    decoder.decode muddled.toJson.text = .ok muddled ∧
    parse muddled.toJson.text = .error (.duplicateMap "crooked") := by
  have hplain := decode_text plain (by decide +kernel)
  have hmuddled := decode_text muddled (by decide +kernel)
  obtain ⟨hvalid, hloaded, -⟩ := parse_reportsFirst hplain
  obtain ⟨-, -, herror⟩ := parse_reportsFirst hmuddled
  obtain ⟨loaded, hparse⟩ := hvalid.mpr (plain.faults_eq_nil_iff.mp (by decide +kernel))
  exact ⟨⟨loaded, hparse, (hloaded loaded hparse).1⟩, hmuddled, (herror _).mpr (by decide +kernel)⟩

end Atlas

end StreetDogs
