import ResourceKinds.Conversion.Registry
import ResourceKinds.Proofs.Kind.Wiring
import ResourceKinds.Proofs.Tables

namespace ResourceKinds

namespace Conversion

/-- A conversion that goes on with the object that its first part ends with. -/
def andThen (first : Conversion) (next : Json → Conversion) : Conversion :=
  match first.result with
  | .error error => ⟨.error error, first.calls⟩
  | .ok object => ⟨(next object).result, first.calls ++ (next object).calls⟩

theorem andThen_of_error {first : Conversion} {error : ConversionError} (failed : first.result = .error error)
    (next : Json → Conversion) : first.andThen next = ⟨.error error, first.calls⟩ := by
  simp only [andThen, failed]

theorem andThen_of_ok {first : Conversion} {object : Json} (reached : first.result = .ok object)
    (next : Json → Conversion) :
    first.andThen next = ⟨(next object).result, first.calls ++ (next object).calls⟩ := by
  simp only [andThen, reached]

end Conversion

/-- The type members of an object of the graph's kind at a version. -/
def VersionGraph.typeAt (graph : VersionGraph) (version : String) : TypeMeta := ⟨graph.group, version, graph.kind⟩

namespace KindConversion

/-- No codec of the kind fails to encode. -/
def Encodes (entry : KindConversion) : Prop :=
  ∀ version object, ∃ text, (entry.codec version).encode object = .ok text

/-- Plain JSON always encodes, so that only the codecs of the kind itself matter. -/
theorem encodes_of_codecs {entry : KindConversion}
    (codecs : ∀ codec ∈ entry.codecs.values, ∀ object, ∃ text, codec.encode object = .ok text) : entry.Encodes := by
  intro version object
  unfold codec
  cases found : entry.codecs.lookup version with
  | none => exact ⟨object.compact, rfl⟩
  | some own =>
    have inside : own ∈ entry.codecs.values := List.mem_map_of_mem (Table.mem_of_lookup found)
    exact codecs own inside object

end KindConversion

namespace ConversionRegistry

variable {registry : ConversionRegistry} {entry : KindConversion} {type : TypeMeta} {object : Json}

theorem travel_cons (entry : KindConversion) (route : Route) (rest : List Route) (type : TypeMeta) (object : Json) :
    travel entry (route :: rest) type object =
      (travel entry [route] type object).andThen (travel entry rest (type.withVersion route.target)) := by
  simp only [travel]
  cases encoded : (entry.codec route.source).encode object with
  | error error => rfl
  | ok text =>
    simp only
    cases (entry.converter.convert route.direction ⟨type, text⟩ (type.withVersion route.target)).bind
        (entry.codec route.target).decode with
    | error error => rfl
    | ok later => rfl

/-- One hop makes one call, with what the codec of its source makes of the object. -/
theorem calls_travel_single (route : Route) {text : String}
    (encoded : (entry.codec route.source).encode object = .ok text) :
    (travel entry [route] type object).calls =
      [⟨route.direction, ⟨type, text⟩, type.withVersion route.target⟩] := by
  simp only [travel, encoded]
  cases (entry.converter.convert route.direction ⟨type, text⟩ (type.withVersion route.target)).bind
      (entry.codec route.target).decode with
  | error error => rfl
  | ok later => rfl

/-- An object of a registered kind travels along the path between two declared versions. -/
theorem convert_eq_travel {version : String} {routes : List Route} (typed : TypeMeta.ofObject object = .ok type)
    (found : registry.find? type.group type.kind = some entry) (source : type.version ∈ entry.graph.versions)
    (target : version ∈ entry.graph.versions) (leads : entry.graph.path? type.version version = some routes) :
    registry.convert object version = travel entry routes type object := by
  have declared : entry.graph.contains type.version = true := by simpa [VersionGraph.contains] using source
  have wanted : entry.graph.contains version = true := by simpa [VersionGraph.contains] using target
  simp only [convert, typed, found, declared, wanted, leads, Bool.not_true, Bool.false_eq_true, if_false]

end ConversionRegistry

/-- A kind as it is found in a registry: its hub is one of its versions. -/
structure ConversionRegistry.Holds (registry : ConversionRegistry) (entry : KindConversion) : Prop where
  found : registry.find? entry.graph.group entry.graph.kind = some entry
  hub : entry.graph.hub ∈ entry.graph.versions

namespace ConversionRegistry.Holds

variable {registry : ConversionRegistry} {entry : KindConversion} {object : Json} {source target : String}

theorem convert_self (holds : registry.Holds entry) (typed : TypeMeta.ofObject object = .ok (entry.graph.typeAt source))
    (declared : source ∈ entry.graph.versions) : registry.convert object source = ⟨.ok object, []⟩ :=
  convert_eq_travel typed holds.found declared declared (VersionGraph.path?_self declared)

theorem convert_toHub (holds : registry.Holds entry)
    (typed : TypeMeta.ofObject object = .ok (entry.graph.typeAt source)) (declared : source ∈ entry.graph.versions)
    (other : source ≠ entry.graph.hub) :
    registry.convert object entry.graph.hub =
      travel entry [⟨source, entry.graph.hub, .toHub⟩] (entry.graph.typeAt source) object :=
  convert_eq_travel typed holds.found declared holds.hub (VersionGraph.path?_toHub declared holds.hub other)

theorem convert_fromHub (holds : registry.Holds entry)
    (typed : TypeMeta.ofObject object = .ok (entry.graph.typeAt entry.graph.hub))
    (wanted : target ∈ entry.graph.versions) (other : target ≠ entry.graph.hub) :
    registry.convert object target =
      travel entry [⟨entry.graph.hub, target, .fromHub⟩] (entry.graph.typeAt entry.graph.hub) object :=
  convert_eq_travel typed holds.found holds.hub wanted (VersionGraph.path?_fromHub wanted holds.hub other)

/-- The way between two versions apart from the hub is the way to the hub and on from there. What the
object says of itself at the hub plays no part in it. -/
theorem convert_spokes (holds : registry.Holds entry)
    (typed : TypeMeta.ofObject object = .ok (entry.graph.typeAt source)) (declared : source ∈ entry.graph.versions)
    (wanted : target ∈ entry.graph.versions) (apart : source ≠ target)
    (other : source ≠ entry.graph.hub) (targetOther : target ≠ entry.graph.hub) :
    registry.convert object target = (registry.convert object entry.graph.hub).andThen
      (travel entry [⟨entry.graph.hub, target, .fromHub⟩] (entry.graph.typeAt entry.graph.hub)) := by
  have leads := VersionGraph.path?_spokes declared wanted holds.hub apart other targetOther
  rw [convert_eq_travel typed holds.found declared wanted leads, holds.convert_toHub typed declared other, travel_cons]
  rfl

end ConversionRegistry.Holds

/-- Parcels with three versions, of which the middle one is the hub. -/
def parcels : KindDefinition :=
  let version (name : String) : KindVersion := ⟨name, .empty, [], [], ⟨true, true⟩, .none, true, true⟩
  ⟨"post.dev", "Parcel", .namespaced, "", "", [version "v1", version "v2", version "v3"], some "v2"⟩

def parcelGraph : VersionGraph := ⟨"post.dev", "Parcel", "v2", true, ["v1", "v2", "v3"]⟩

def parcel (version : String) : Json :=
  .object [("apiVersion", .string ("post.dev/" ++ version)), ("kind", .string "Parcel")]

/-- Every object is packed as the same text, and unpacked as the same object. -/
def parcelCodec (version : String) : Codec := ⟨fun _ => .ok ("packed at " ++ version), fun _ => .ok (parcel version)⟩

/-- A converter that hands on what it is given. -/
def parcelEntry : KindConversion :=
  ⟨parcelGraph, [("v1", parcelCodec "v1"), ("v2", parcelCodec "v2"), ("v3", parcelCodec "v3")],
    .custom (fun source _ => .ok source.text) (fun source _ => .ok source.text)⟩

namespace ConversionRegistry

/-- A conversion calls the converter once for each hop, into the hub first and out of it only if that
went well. Its outcome and its last call are those of converting the object that came out at the hub,
where that object says that it is of the hub's version. -/
theorem convert_calls {definition : KindDefinition} {preferred : Option String} {graph : VersionGraph}
    (wired : definition.wire preferred = .ok graph) {registry : ConversionRegistry} {codecs : Fields Codec}
    {converter : Converter} (found : registry.find? graph.group graph.kind = some ⟨graph, codecs, converter⟩)
    (encode : ∀ codec ∈ codecs.values, ∀ object, ∃ text, codec.encode object = .ok text)
    {object : Json} {source target : String} (typed : TypeMeta.ofObject object = .ok (graph.typeAt source))
    (declared : source ∈ graph.versions) (wanted : target ∈ graph.versions) :
    (source = target → registry.convert object target = ⟨.ok object, []⟩) ∧
    ∃ text, ((KindConversion.mk graph codecs converter).codec source).encode object = .ok text ∧
      (source ≠ target → source = graph.hub → (registry.convert object target).calls =
        [⟨.fromHub, ⟨graph.typeAt source, text⟩, graph.typeAt target⟩]) ∧
      (source ≠ target → target = graph.hub → (registry.convert object target).calls =
        [⟨.toHub, ⟨graph.typeAt source, text⟩, graph.typeAt target⟩]) ∧
      (source ≠ target → source ≠ graph.hub → target ≠ graph.hub →
        (∀ error, (registry.convert object graph.hub).result = .error error → registry.convert object target =
          ⟨.error error, [⟨.toHub, ⟨graph.typeAt source, text⟩, graph.typeAt graph.hub⟩]⟩) ∧
        ∀ central, (registry.convert object graph.hub).result = .ok central →
          ∃ onward, ((KindConversion.mk graph codecs converter).codec graph.hub).encode central = .ok onward ∧
            (registry.convert object target).calls =
              [⟨.toHub, ⟨graph.typeAt source, text⟩, graph.typeAt graph.hub⟩,
                ⟨.fromHub, ⟨graph.typeAt graph.hub, onward⟩, graph.typeAt target⟩] ∧
            (TypeMeta.ofObject central = .ok (graph.typeAt graph.hub) →
              (registry.convert object target).result = (registry.convert central target).result ∧
              (registry.convert central target).calls =
                [⟨.fromHub, ⟨graph.typeAt graph.hub, onward⟩, graph.typeAt target⟩])) := by
  have isWired := KindDefinition.wired_of_wire wired
  have hub : graph.hub ∈ graph.versions := isWired.versions ▸ isWired.hub
  have holds : registry.Holds ⟨graph, codecs, converter⟩ := ⟨found, hub⟩
  have encodes : (KindConversion.mk graph codecs converter).Encodes := KindConversion.encodes_of_codecs encode
  obtain ⟨text, encoded⟩ := encodes source object
  refine ⟨?_, text, encoded, ?_, ?_, fun apart other targetOther => ?_⟩
  · rintro rfl
    exact holds.convert_self typed declared
  · rintro apart rfl
    rw [holds.convert_fromHub typed wanted apart.symm]
    exact calls_travel_single _ encoded
  · rintro apart rfl
    rw [holds.convert_toHub typed declared apart]
    exact calls_travel_single _ encoded
  have inward : (registry.convert object graph.hub).calls =
      [⟨.toHub, ⟨graph.typeAt source, text⟩, graph.typeAt graph.hub⟩] := by
    rw [holds.convert_toHub typed declared other]
    exact calls_travel_single _ encoded
  have through := holds.convert_spokes typed declared wanted apart other targetOther
  refine ⟨fun error failed => ?_, fun central reached => ?_⟩
  · rw [through, Conversion.andThen_of_error failed, inward]
  obtain ⟨onward, encodedThere⟩ := encodes graph.hub central
  have outward : (travel ⟨graph, codecs, converter⟩ [⟨graph.hub, target, .fromHub⟩] (graph.typeAt graph.hub)
      central).calls = [⟨.fromHub, ⟨graph.typeAt graph.hub, onward⟩, graph.typeAt target⟩] :=
    calls_travel_single _ encodedThere
  rw [through, Conversion.andThen_of_ok reached]
  refine ⟨onward, encodedThere, ?_, fun typedThere => ?_⟩
  · rw [inward, outward]
    rfl
  · rw [holds.convert_fromHub typedThere wanted targetOther]
    exact ⟨rfl, outward⟩

/-- A parcel goes over the hub, and from there as one that came from the hub itself. -/
theorem convert_calls_parcel :
    ((empty.register parcelEntry).convert (parcel "v1") "v3").calls =
        [⟨.toHub, ⟨⟨"post.dev", "v1", "Parcel"⟩, "packed at v1"⟩, ⟨"post.dev", "v2", "Parcel"⟩⟩,
          ⟨.fromHub, ⟨⟨"post.dev", "v2", "Parcel"⟩, "packed at v2"⟩, ⟨"post.dev", "v3", "Parcel"⟩⟩] ∧
      ((empty.register parcelEntry).convert (parcel "v1") "v3").result =
        ((empty.register parcelEntry).convert (parcel "v2") "v3").result := by
  have wired : parcels.wire none = .ok parcelGraph := by cbv
  have found : (empty.register parcelEntry).find? parcelGraph.group parcelGraph.kind = some parcelEntry := by rfl
  have encode : ∀ codec ∈ parcelEntry.codecs.values, ∀ object, ∃ text, codec.encode object = .ok text := by
    intro codec inside object
    simp only [parcelEntry, Table.values, List.map_cons, List.map_nil, List.mem_cons, List.not_mem_nil, or_false]
      at inside
    obtain rfl | rfl | rfl := inside
    · exact ⟨"packed at v1", rfl⟩
    · exact ⟨"packed at v2", rfl⟩
    · exact ⟨"packed at v3", rfl⟩
  have typed : TypeMeta.ofObject (parcel "v1") = .ok (parcelGraph.typeAt "v1") := by cbv
  have typedThere : TypeMeta.ofObject (parcel "v2") = .ok (parcelGraph.typeAt "v2") := by cbv
  have reached : ((empty.register parcelEntry).convert (parcel "v1") "v2").result = .ok (parcel "v2") := by cbv
  obtain ⟨_, text, packed, _, _, spokes⟩ := convert_calls wired found encode typed (by decide)
    (show "v3" ∈ parcelGraph.versions by decide)
  obtain ⟨_, onward⟩ := spokes (by decide) (by decide) (by decide)
  obtain ⟨textThere, packedThere, calls, again⟩ := onward (parcel "v2") reached
  obtain rfl : "packed at v1" = text := Except.ok.inj packed
  obtain rfl : "packed at v2" = textThere := Except.ok.inj packedThere
  exact ⟨calls, (again typedThere).1⟩

end ConversionRegistry

end ResourceKinds
