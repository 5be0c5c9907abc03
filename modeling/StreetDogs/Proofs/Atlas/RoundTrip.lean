import StreetDogs.Proofs.Json.Decoder
import StreetDogs.Proofs.Server.Contract

/-!
# Map documents read back

The text written for a description of maps decodes to the same description,
whatever its strings, coordinates and lists are, as long as its speeds are
finite and come back from their numerals.  The answer that describes a map is
such a text.
-/

namespace StreetDogs

open Json (ReadsBack Value)
open Json.Decoder

variable {levels : ℕ}

/-- Absent members are not written, and what is absent is read as absent. -/
theorem RoadRecord.decoder_node (record : RoadRecord) :
    decoder (levels + 1) record.toJson.node = .ok record := by
  obtain ⟨x0, y0, x1, y1⟩ := record
  cases x1 <;> cases y1 <;>
    simp [decoder, toJson, Coord.toJson, optionalMember, members_cons, Draft.known]

theorem BuildingRecord.decoder_node (record : BuildingRecord) :
    decoder (levels + 1) record.toJson.node = .ok record := by
  simp [decoder, toJson, Coord.toJson, members_cons, Draft.known]

theorem OfficeRecord.decoder_node (record : OfficeRecord) :
    decoder (levels + 1) record.toJson.node = .ok record := by
  simp [decoder, toJson, Coord.toJson, members_cons, Draft.known]

theorem MapRecord.decoder_node {record : MapRecord} (hspeed : ∀ x ∈ record.dogSpeed, ReadsBack x) :
    decoder (levels + 3) record.toJson.node = .ok record := by
  obtain ⟨id, name, dogSpeed, roads, buildings, offices⟩ := record
  have hroads := list_node (levels + 1) fun road (_ : road ∈ roads) =>
    road.decoder_node
  have hbuildings := list_node (levels + 1) fun building (_ : building ∈ buildings) =>
    building.decoder_node
  have hoffices := list_node (levels + 1) fun office (_ : office ∈ offices) =>
    office.decoder_node
  cases dogSpeed with
  | none =>
      simp [decoder, toJson, optionalMember, members_cons, Draft.known, hroads, hbuildings,
        hoffices]
  | some x =>
      have hx := nullable_real_node (levels + 2) (hspeed x rfl)
      simp [decoder, toJson, optionalMember, members_cons, Draft.known, hx, hroads, hbuildings,
        hoffices]

namespace Atlas

def speeds (atlas : Atlas) : List Float :=
  atlas.defaultDogSpeed.toList ++ atlas.maps.flatMap (·.dogSpeed.toList)

theorem decoder_node {atlas : Atlas} (hspeeds : ∀ x ∈ atlas.speeds, ReadsBack x) :
    decoder (levels + 5) atlas.toJson.node = .ok atlas := by
  obtain ⟨defaultDogSpeed, maps⟩ := atlas
  obtain ⟨hdefault, hmaps⟩ := List.forall_mem_append.mp hspeeds
  have hmaps := list_node (levels + 3) fun record hrecord =>
    MapRecord.decoder_node fun x hx =>
      hmaps x (List.mem_flatMap.mpr ⟨record, hrecord, Option.mem_toList.mpr hx⟩)
  cases defaultDogSpeed with
  | none => simp [decoder, toJson, optionalMember, members_cons, Draft.known, hmaps]
  | some x =>
      have hx := nullable_real_node (levels + 4) (hdefault x (List.mem_singleton_self x))
      simp [decoder, toJson, optionalMember, members_cons, Draft.known, hx, hmaps]

end Atlas

/-- A successful answer to the request for a map is the description of that map. -/
theorem Server.answer_getMap {server : Server} {elapsed : Duration} {message : Message}
    {id : String} {response : Api.Response} (hread : message.read = .ok (.getMap id))
    (hanswer : (server.receive elapsed message).1 = .ok response) :
    ∃ map, server.game.findMap? id = some map ∧ response = .map (.ofMap map) := by
  have hgame : server.countRequest.game = server.game := rfl
  rw [receive_of_read hread, handle, describe_eq, hgame] at hanswer
  cases hmap : server.game.findMap? id with
  | none =>
      rw [hmap] at hanswer
      cases hanswer
  | some map =>
      rw [hmap] at hanswer
      exact ⟨map, rfl, (Except.ok.inj hanswer).symm⟩

namespace Atlas

/-- Every document of maps and every description of a map comes back from its
text, if its speeds come back from their numerals; so does the answer that
describes a map. -/
theorem decode_toJson_text :
    (∀ atlas : Atlas, (∀ x ∈ atlas.speeds, ReadsBack x) →
      decoder.decode atlas.toJson.text = .ok atlas) ∧
    (∀ record : MapRecord, (∀ x ∈ record.dogSpeed, ReadsBack x) →
      MapRecord.decoder.decode record.toJson.text = .ok record) ∧
    ∀ (server : Server) (elapsed : Duration) (message : Message) (id : String)
      (response : Api.Response), message.read = .ok (.getMap id) →
      (server.receive elapsed message).1 = .ok response →
      ∃ map, server.game.findMap? id = some map ∧ response = .map (.ofMap map) ∧
        ((∀ x ∈ map.dogSpeed, ReadsBack x) →
          MapRecord.decoder.decode response.text = .ok (.ofMap map)) := by
  have hrecord (record : MapRecord) (h : ∀ x ∈ record.dogSpeed, ReadsBack x) :
      MapRecord.decoder.decode record.toJson.text = .ok record := by
    rw [Json.Decoder.decode_text]
    exact MapRecord.decoder_node h
  refine ⟨fun atlas h => ?_, hrecord, fun server elapsed message id response hread hanswer => ?_⟩
  · rw [Json.Decoder.decode_text]
    exact decoder_node h
  · obtain ⟨map, hmap, rfl⟩ := Server.answer_getMap hread hanswer
    exact ⟨map, hmap, rfl, hrecord (.ofMap map)⟩

/-- A document whose strings need every kind of escape, with extreme coordinates. -/
def islands : Atlas where
  defaultDogSpeed := some 2.5
  maps := [{
    id := "a\"b\\\x01"
    name := "\n🐕"
    dogSpeed := some 0.75
    roads := [⟨Int32.minValue, Int32.maxValue, some 0, none⟩, ⟨0, 0, none, some 7⟩]
    offices := [⟨"", 0, 0, -1, 1⟩] }]

def quickTown : StreetMap :=
  { StreetMap.threeRoads with
    dogSpeed := some 4.25
    dogSpeed_usable := by decide +kernel }

theorem decode_toJson_text_islands :
    decoder.decode islands.toJson.text = .ok islands ∧
    ∃ map, { Game.onThreeRoads with maps := [quickTown] }.findMap? "town" = some map ∧
      Api.Response.map (.ofMap quickTown) = .map (.ofMap map) ∧
      MapRecord.decoder.decode (Api.Response.map (.ofMap quickTown)).text = .ok (.ofMap map) := by
  obtain ⟨hatlas, -, hanswer⟩ := decode_toJson_text
  refine ⟨hatlas islands (by decide +kernel), ?_⟩
  obtain ⟨map, hmap, hresponse, hdecode⟩ := hanswer
    { game := { Game.onThreeRoads with maps := [quickTown] }, mode := .external } ⟨0⟩
    (.typed (.getMap "town")) "town" (.map (.ofMap quickTown)) rfl rfl
  obtain rfl : quickTown = map := Option.some.inj hmap
  exact ⟨quickTown, hmap, hresponse, hdecode (by decide +kernel)⟩

end Atlas

end StreetDogs
