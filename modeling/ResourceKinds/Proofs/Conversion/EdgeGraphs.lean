import Mathlib.Data.List.Nodup
import ResourceKinds.Proofs.Kind.Wiring

namespace ResourceKinds

/-- An edge between two of so many nodes. -/
structure NumberedEdge (size : Nat) where
  source : Fin size
  target : Fin size
  direction : Direction

/-- The route along an edge, between the names of its ends. -/
def NumberedEdge.route {nodes : List String} (edge : NumberedEdge nodes.length) : Route :=
  ⟨nodes[edge.source], nodes[edge.target], edge.direction⟩

/-- Nodes by their numbers, and edges in the order in which they were added. -/
structure EdgeGraph where
  nodes : List String
  edges : List (NumberedEdge nodes.length)

namespace Route

/-- The end of a route away from the hub. -/
def spoke (route : Route) : String :=
  match route.direction with
  | .toHub => route.source
  | .fromHub => route.target

/-- The place of a name among the versions. A name that is not among them comes before all of them. -/
def rank (versions : List String) (name : String) : Nat := (versions.idxOf? name).elim 0 (· + 1)

/-- Routes are ordered by their versions away from the hub, and the way to the hub comes first. -/
def precedes (versions : List String) (a b : Route) : Bool :=
  rank versions a.spoke < rank versions b.spoke ||
    rank versions a.spoke = rank versions b.spoke && (a.direction = .toHub || b.direction = .fromHub)

end Route

namespace EdgeGraph

/-- The number of a node. -/
def number? (graph : EdgeGraph) (name : String) : Option (Fin graph.nodes.length) := graph.nodes.finIdxOf? name

def contains (graph : EdgeGraph) (name : String) : Bool := (graph.number? name).isSome

/-- All routes, in the order of the given versions. -/
def routes (graph : EdgeGraph) (versions : List String) : List Route :=
  (graph.edges.map NumberedEdge.route).mergeSort (Route.precedes versions)

/-- The last edge that was added between two nodes. -/
def edge? (graph : EdgeGraph) (source target : Fin graph.nodes.length) : Option (NumberedEdge graph.nodes.length) :=
  graph.edges.reverse.find? fun edge => edge.source = source && edge.target = target

def route? (graph : EdgeGraph) (source target : String) : Option Route := do
  let first ← graph.number? source
  let last ← graph.number? target
  let edge ← graph.edge? first last
  return ⟨source, target, edge.direction⟩

/-- The hops from one node to another, by way of the hub. -/
def path? (graph : EdgeGraph) (hub source target : String) : Option (List Route) :=
  if !graph.contains source || !graph.contains target then none
  else if source = target then some []
  else if source = hub || target = hub then (graph.route? source target).map fun route => [route]
  else do
    let up ← graph.route? source hub
    let down ← graph.route? hub target
    return [up, down]

/-- The edges between a version and the hub. The hub itself has none. -/
def spokeEdges (versions : List String) (hub version : String) : List (NumberedEdge versions.length) :=
  match versions.finIdxOf? version, versions.finIdxOf? hub with
  | some spoke, some center => if version = hub then [] else [⟨spoke, center, .toHub⟩, ⟨center, spoke, .fromHub⟩]
  | _, _ => []

/-- A node for each version, and after that the edges of one version after the other. -/
def star (versions : List String) (hub : String) : EdgeGraph :=
  ⟨versions, versions.flatMap (spokeEdges versions hub)⟩

variable {versions : List String} {hub version : String}

theorem exists_finIdxOf? (inside : version ∈ versions) :
    ∃ number, versions.finIdxOf? version = some number ∧ versions[number] = version := by
  cases found : versions.finIdxOf? version with
  | none => exact absurd inside (List.finIdxOf?_eq_none_iff.mp found)
  | some number => exact ⟨number, rfl, (List.finIdxOf?_eq_some_iff.mp found).1⟩

theorem routes_spokeEdges (central : hub ∈ versions) (inside : version ∈ versions) :
    (spokeEdges versions hub version).map NumberedEdge.route =
      if version = hub then [] else [⟨version, hub, .toHub⟩, ⟨hub, version, .fromHub⟩] := by
  obtain ⟨center, isCenter, centerNamed⟩ := exists_finIdxOf? central
  obtain ⟨spoke, isSpoke, spokeNamed⟩ := exists_finIdxOf? inside
  simp only [spokeEdges, isCenter, isSpoke]
  split
  · rfl
  · simp only [List.map_cons, List.map_nil, NumberedEdge.route, centerNamed, spokeNamed]

end EdgeGraph

namespace VersionGraph

variable {graph : VersionGraph}

/-- The graph with its versions as nodes. -/
def edgeGraph (graph : VersionGraph) : EdgeGraph := .star graph.versions graph.hub

theorem routes_eq_flatMap (graph : VersionGraph) : graph.routes = graph.versions.flatMap fun version =>
    if version = graph.hub then [] else [⟨version, graph.hub, .toHub⟩, ⟨graph.hub, version, .fromHub⟩] := by
  unfold routes
  induction graph.versions with
  | nil => rfl
  | cons version rest ih =>
    rw [List.flatMap_cons, ← ih]
    by_cases isHub : version = graph.hub <;> simp [isHub]

theorem routes_edges (central : graph.hub ∈ graph.versions) :
    graph.edgeGraph.edges.map NumberedEdge.route = graph.routes := by
  rw [routes_eq_flatMap]
  exact (List.map_flatMap ..).trans
    (List.flatMap_congr fun version inside => EdgeGraph.routes_spokeEdges central inside)

/-- Names of their own have increasing places. -/
theorem rank_lt (distinct : graph.versions.Nodup) :
    graph.versions.Pairwise fun a b => Route.rank graph.versions a < Route.rank graph.versions b := by
  have rank (position : Nat) (within : position < graph.versions.length) :
      Route.rank graph.versions graph.versions[position] = position + 1 := by
    have here : graph.versions.idxOf? graph.versions[position] = some position :=
      List.idxOf?_eq_some_iff.mpr ⟨within, rfl, fun earlier before same => by
        have equal := (distinct.getElem_inj_iff).mp same
        omega⟩
    rw [Route.rank, here]
    rfl
  rw [List.pairwise_iff_getElem]
  intro i j first second before
  rw [rank i first, rank j second]
  omega

/-- The routes are in order as they are listed. -/
theorem routes_ordered (distinct : graph.versions.Nodup) :
    graph.routes.Pairwise fun a b => Route.precedes graph.versions a b = true := by
  unfold routes
  rw [List.pairwise_flatMap]
  refine ⟨fun version _ => ?_, ((rank_lt distinct).filter _).imp fun {earlier later} before a first b second => ?_⟩
  · simp [Route.precedes, Route.spoke]
  · have spokeFirst : a.spoke = earlier := by
      rcases List.mem_pair.mp first with rfl | rfl <;> rfl
    have spokeSecond : b.spoke = later := by
      rcases List.mem_pair.mp second with rfl | rfl <;> rfl
    simp [Route.precedes, spokeFirst, spokeSecond, before]

/-- The edges, put in order, give the routes of the graph. -/
theorem routes_edgeGraph (distinct : graph.versions.Nodup) (central : graph.hub ∈ graph.versions) :
    graph.edgeGraph.routes graph.versions = graph.routes := by
  rw [EdgeGraph.routes, routes_edges central]
  exact List.mergeSort_of_pairwise (routes_ordered distinct)

/-- A route is known by its ends. -/
theorem eq_of_ends {a b : Route} (first : a ∈ graph.routes) (second : b ∈ graph.routes) (source : a.source = b.source)
    (target : a.target = b.target) : a = b := by
  obtain ⟨version, _, other, rfl | rfl⟩ := mem_routes.mp first <;>
    obtain ⟨version, _, otherToo, rfl | rfl⟩ := mem_routes.mp second
  · exact congrArg (Route.mk · graph.hub .toHub) source
  · exact absurd source other
  · exact absurd source.symm otherToo
  · exact congrArg (Route.mk graph.hub · .fromHub) target

theorem ends_of_mem (central : graph.hub ∈ graph.versions) {route : Route} (inside : route ∈ graph.routes) :
    route.source ∈ graph.versions ∧ route.target ∈ graph.versions := by
  obtain ⟨version, declared, _, rfl | rfl⟩ := mem_routes.mp inside
  · exact ⟨declared, central⟩
  · exact ⟨central, declared⟩

theorem route?_eq_some (central : graph.hub ∈ graph.versions) {source target : String} {route : Route} :
    graph.route? source target = some route ↔
      route ∈ graph.routes ∧ route.source = source ∧ route.target = target := by
  constructor
  · intro found
    rw [route?] at found
    split at found
    · have ends := List.find?_some found
      simp only [Bool.and_eq_true, decide_eq_true_eq] at ends
      exact ⟨List.mem_of_find?_eq_some found, ends⟩
    · cases found
  · rintro ⟨inside, rfl, rfl⟩
    obtain ⟨source, target⟩ := ends_of_mem central inside
    exact route?_of_mem inside source target fun other among first last => eq_of_ends among inside first last

theorem number?_edgeGraph (distinct : graph.versions.Nodup) (number : Fin graph.versions.length) :
    graph.edgeGraph.number? graph.versions[number] = some number := by
  refine List.finIdxOf?_eq_some_iff.mpr ⟨rfl, fun earlier before same => ?_⟩
  have equal := distinct.getElem_inj_iff.mp same
  exact absurd (Fin.ext equal) (Fin.ne_of_lt before)

/-- The edge between two nodes gives the route between their versions. -/
theorem route?_edgeGraph (distinct : graph.versions.Nodup) (central : graph.hub ∈ graph.versions)
    (source target : String) : graph.edgeGraph.route? source target = graph.route? source target := by
  refine Option.ext fun route => ?_
  rw [route?_eq_some central, ← routes_edges central]
  constructor
  · intro found
    obtain ⟨first, isFirst, found⟩ := Option.bind_eq_some_iff.mp found
    obtain ⟨last, isLast, found⟩ := Option.bind_eq_some_iff.mp found
    obtain ⟨edge, isEdge, found⟩ := Option.bind_eq_some_iff.mp found
    obtain rfl := Option.some.inj found
    have ends := List.find?_some isEdge
    simp only [Bool.and_eq_true, decide_eq_true_eq] at ends
    obtain ⟨rfl, rfl⟩ := ends
    have same : edge.route = ⟨source, target, edge.direction⟩ := by
      rw [NumberedEdge.route, (List.finIdxOf?_eq_some_iff.mp isFirst).1, (List.finIdxOf?_eq_some_iff.mp isLast).1]
    exact ⟨List.mem_map.mpr ⟨edge, List.mem_reverse.mp (List.mem_of_find?_eq_some isEdge), same⟩, rfl, rfl⟩
  · rintro ⟨inside, rfl, rfl⟩
    obtain ⟨edge, among, rfl⟩ := List.mem_map.mp inside
    cases found : graph.edgeGraph.edge? edge.source edge.target with
    | none => simpa using List.find?_eq_none.mp found edge (List.mem_reverse.mpr among)
    | some other =>
      have ends := List.find?_some found
      simp only [Bool.and_eq_true, decide_eq_true_eq] at ends
      have otherInside : other.route ∈ graph.routes :=
        routes_edges central ▸ List.mem_map_of_mem (List.mem_reverse.mp (List.mem_of_find?_eq_some found))
      have same : other.route = edge.route :=
        eq_of_ends otherInside (routes_edges central ▸ inside)
          (congrArg (graph.edgeGraph.nodes[·]) ends.1) (congrArg (graph.edgeGraph.nodes[·]) ends.2)
      have first : graph.edgeGraph.number? edge.route.source = some edge.source :=
        number?_edgeGraph distinct edge.source
      have last : graph.edgeGraph.number? edge.route.target = some edge.target :=
        number?_edgeGraph distinct edge.target
      have direction : other.direction = edge.direction := congrArg Route.direction same
      simp only [EdgeGraph.route?, first, last, found, direction, Option.bind_eq_bind, Option.bind_some]
      rfl

theorem contains_edgeGraph (graph : VersionGraph) (version : String) :
    graph.edgeGraph.contains version = graph.contains version := by
  have numbered : (graph.edgeGraph.contains version = true) ↔ version ∈ graph.versions := by
    rw [EdgeGraph.contains, EdgeGraph.number?, ← Option.ne_none_iff_isSome, ne_eq, List.finIdxOf?_eq_none_iff,
      Decidable.not_not]
    rfl
  rw [Bool.eq_iff_iff, numbered]
  simp [contains]

/-- The ways that are found edge by edge are those of the graph. -/
theorem path?_edgeGraph (distinct : graph.versions.Nodup) (central : graph.hub ∈ graph.versions)
    (source target : String) : graph.edgeGraph.path? graph.hub source target = graph.path? source target := by
  simp only [EdgeGraph.path?, path?, contains_edgeGraph, route?_edgeGraph distinct central]

end VersionGraph

end ResourceKinds
