import HeaderCatalog.Proofs.Exports.Alignment
import HeaderCatalog.Scan

/-!
# HeaderCatalog.Proofs.Exports.Catalogues — catalogues with and without exports

Turning exports off leaves out the entities under export statements. What is said of the others
apart from their places stays the same for classes, functions and variables, but their places may
change: in `shadowing` a function is found in the body of the exported function in front of it, as
that one no longer moves the cursor past its body (`shadowing_moved_without_exports`).

`scanTree_without_exports` compares the two catalogues of every tree. The places stay exactly if
each remaining header is chosen by the cursor which the remaining ones before it leave. If no
remaining method has the class name of an exported class or method, this is also exactly when the
catalogue without exports is what remains of the one with exports.
-/

namespace HeaderCatalog

/-! ## Scans -/

theorem scanTree_of_clean {root : Node} {settings : Settings} (herror : root.hasError = false)
    (source : Text) :
    scanTree root source settings =
      ((catalogTree root source settings).mapError .fault).map fun result =>
        (result.1, gapEvents root ++ result.2) := by
  unfold scanTree Node.clean
  rw [herror]
  simp only [Bool.false_eq_true, if_false, Except.mapError, Bind.bind, Except.bind]
  cases catalogTree root source settings with
  | error fault => rfl
  | ok result => rfl

/-- A scan returns a catalogue exactly if the tree has no error and the catalogue of the tree
returns. -/
theorem scanTree_eq_ok_iff {root : Node} {source : Text} {settings : Settings}
    {ds : List Descriptor} :
    (∃ events, scanTree root source settings = .ok (ds, events)) ↔
      root.hasError = false ∧ ∃ events, catalogTree root source settings = .ok (ds, events) := by
  constructor
  · rintro ⟨events, h⟩
    have herror : root.hasError = false := by
      by_contra hne
      have hyes : root.hasError = true := by simpa using hne
      unfold scanTree Node.clean at h
      rw [hyes] at h
      cases h
    refine ⟨herror, ?_⟩
    rw [scanTree_of_clean herror] at h
    cases hcatalog : catalogTree root source settings with
    | error fault =>
      rw [hcatalog] at h
      cases h
    | ok result =>
      rw [hcatalog] at h
      cases h
      exact ⟨result.2, rfl⟩
  · rintro ⟨herror, events, h⟩
    refine ⟨gapEvents root ++ events, ?_⟩
    rw [scanTree_of_clean herror, h]
    rfl

/-! ## The two runs -/

/-- What a descriptor says apart from the place and the text of the header. -/
def Descriptor.unplaced (d : Descriptor) : Descriptor :=
  { d with line := 0, indent := 0, header := [] }

theorem Descriptor.Describes.unplaced_eq {d d' : Descriptor} {e : Entity} (h : d.Describes e)
    (h' : d'.Describes e) : d'.unplaced = d.unplaced := by
  have hname : d'.name = d.name := Except.ok.inj (h'.name.symm.trans h.name)
  have hparams : d'.params = d.params := Except.ok.inj (h'.params.symm.trans h.params)
  have hkind : d'.kind = d.kind := h'.kind.trans h.kind.symm
  have henclosing : d'.enclosing = d.enclosing := h'.enclosing.trans h.enclosing.symm
  have hkeyword : d'.keyword = d.keyword := h'.keyword.trans h.keyword.symm
  rw [unplaced, unplaced, hname, hparams, hkind, henclosing, hkeyword]

/-- A class of this name is looked up for an entity under an export statement. -/
def ExportsClass (flagged : List (Entity × Bool)) (key : Option Text) : Prop :=
  ∃ e, (e, true) ∈ flagged ∧ e.LooksUp key

/-- Two visits of one class, function or variable over one text locate it both or not at all, and
describe it alike. -/
theorem Visit.Accounted.unplaced_eq {v w : Visit} {tabSize : Nat} {text : Text}
    (hv : v.Accounted tabSize text) (hw : w.Accounted tabSize text) (hentity : w.entity = v.entity)
    (hkind : v.entity.kind ≠ .method) :
    w.outcome.map Descriptor.unplaced = v.outcome.map Descriptor.unplaced := by
  have hlocated := hw.topLevel
  have hdescribes := hw.describes
  rw [hentity] at hlocated hdescribes
  have hboth : v.outcome.isSome ↔ w.outcome.isSome :=
    (hv.topLevel hkind).trans (hlocated hkind).symm
  cases hd : v.outcome with
  | none =>
    cases hd' : w.outcome with
    | none => rfl
    | some d' => simp [hd, hd'] at hboth
  | some d =>
    cases hd' : w.outcome with
    | none => simp [hd, hd'] at hboth
    | some d' =>
      have halike := (hv.describes d hd).unplaced_eq (hdescribes d' hd')
      rw [Option.map_some, Option.map_some, halike]

namespace Run

/-- The remaining classes, functions and variables are where the cursor would choose them if the
flagged entities were left out. -/
def ChosenAlone (tabSize : Nat) (text : Text) (flagged : List (Entity × Bool))
    (vs : List Visit) : Prop :=
  ChosenFrom tabSize text (.ofText text 0) (topLevelLocated (remainingVisits flagged vs))

/-- How the run over the remaining entities, with visits `ws`, compares to the run over all of
them, with visits `vs`. -/
structure Compares (tabSize : Nat) (text : Text) (flagged : List (Entity × Bool))
    (vs ws : List Visit) : Prop where
  entities : List.Forall₂ (fun v w => w.entity = v.entity) (remainingVisits flagged vs) ws
  /-- A class, function or variable is located by both runs or by none, and is described alike. -/
  topLevel : List.Forall₂ (fun v w => v.entity.kind ≠ .method →
    w.outcome.map Descriptor.unplaced = v.outcome.map Descriptor.unplaced)
    (remainingVisits flagged vs) ws
  /-- They all keep their places exactly if these are chosen without the flagged ones too. -/
  places_iff : List.Forall₂ (fun v w => v.entity.kind ≠ .method → w.outcome = v.outcome)
    (remainingVisits flagged vs) ws ↔ ChosenAlone tabSize text flagged vs
  /-- Then the methods keep theirs too, unless their class has the name of an exported one. -/
  methods : ChosenAlone tabSize text flagged vs →
    List.Forall₂ (fun v w => v.entity.kind = .method →
      ¬ ExportsClass flagged v.entity.enclosing → w.outcome = v.outcome)
      (remainingVisits flagged vs) ws

/-- Two runs over the same entities locate the same as far as `view` shows it, if this holds for
each class, function and variable. -/
theorem map_topLevelLocated_congr {β : Type} (view : Entity × Descriptor → β) {vs ws : List Visit}
    (h : List.Forall₂ (fun v w => w.entity = v.entity) vs ws)
    (hsame : List.Forall₂ (fun v w => v.entity.kind ≠ .method →
      w.outcome.map (fun d => view (v.entity, d)) =
        v.outcome.map (fun d => view (v.entity, d))) vs ws) :
    (topLevelLocated ws).map view = (topLevelLocated vs).map view := by
  unfold topLevelLocated
  rw [List.map_filterMap, List.map_filterMap]
  induction h with
  | nil => rfl
  | @cons v w vs ws hentity _ ih =>
    cases hsame with
    | cons hfirst hrest =>
      rw [List.filterMap_cons, List.filterMap_cons, ih hrest, hentity]
      by_cases hkind : v.entity.kind = .method
      · simp only [if_pos hkind]
      · simp only [if_neg hkind, Option.map_map, Function.comp_def, hfirst hkind]

theorem topLevelLocated_congr {vs ws : List Visit}
    (h : List.Forall₂ (fun v w => w.entity = v.entity) vs ws)
    (hsame : List.Forall₂ (fun v w => v.entity.kind ≠ .method → w.outcome = v.outcome) vs ws) :
    topLevelLocated ws = topLevelLocated vs := by
  have hmap := map_topLevelLocated_congr id h (hsame.imp fun v w (halike : _ → _) hkind => by
    rw [halike hkind])
  rwa [List.map_id, List.map_id] at hmap

/-- Two runs that locate the same entities and list the same descriptors locate them alike. -/
theorem topLevelLocated_eq {vs ws : List Visit}
    (h : List.Forall₂ (fun v w => w.entity = v.entity) vs ws)
    (hlocated : List.Forall₂ (fun v w => v.entity.kind ≠ .method →
      w.outcome.map Descriptor.unplaced = v.outcome.map Descriptor.unplaced) vs ws)
    (hlisted : (topLevelLocated ws).map (·.2) = (topLevelLocated vs).map (·.2)) :
    topLevelLocated ws = topLevelLocated vs := by
  have hentities : (topLevelLocated ws).map (·.1) = (topLevelLocated vs).map (·.1) := by
    refine map_topLevelLocated_congr _ h (hlocated.imp fun v w (halike : _ → _) hkind => ?_)
    have hconst := congrArg (Option.map fun _ => v.entity) (halike hkind)
    simpa only [Option.map_map, Function.comp_def] using hconst
  exact (List.zip_of_prod hentities hlisted).trans (List.zip_of_prod rfl rfl).symm

theorem filterMap_outcome_congr {vs ws : List Visit}
    (h : List.Forall₂ (fun v w => w.outcome = v.outcome) vs ws) :
    ws.filterMap (·.outcome) = vs.filterMap (·.outcome) := by
  induction h with
  | nil => rfl
  | cons hfirst _ ih => rw [List.filterMap_cons, List.filterMap_cons, hfirst, ih]

theorem aligned_start (text : Text) (shared : Option Text → Prop) :
    Aligned shared (.start text) (.start text) :=
  ⟨fun _ _ => rfl, fun _ _ => rfl⟩

variable {tabSize : Nat} {text : Text} {flagged : List (Entity × Bool)} {vs ws : List Visit}

theorem forall₂_entity (hvs : visits tabSize (.start text) (flagged.map (·.1)) = .ok vs)
    (hws : visits tabSize (.start text) (remaining flagged) = .ok ws) :
    List.Forall₂ (fun v w => w.entity = v.entity) (remainingVisits flagged vs) ws := by
  have hvisited := entities_remainingVisits (entities_of_visits hvs)
  rw [← entities_of_visits hws] at hvisited
  have hmapped : List.Forall₂ (· = ·) ((remainingVisits flagged vs).map (·.entity))
      (ws.map (·.entity)) := by
    rw [hvisited]
    exact List.forall₂_refl _
  rw [List.forall₂_map_left_iff, List.forall₂_map_right_iff] at hmapped
  exact hmapped.imp fun v w hsame => hsame.symm

theorem compares_of_visits (hvs : visits tabSize (.start text) (flagged.map (·.1)) = .ok vs)
    (hws : visits tabSize (.start text) (remaining flagged) = .ok ws) :
    Compares tabSize text flagged vs ws := by
  have hentities := forall₂_entity hvs hws
  have hsound := sound_start text
  have houtcome := (aligned_start text fun key => ¬ ExportsClass flagged key).forall₂_outcome
    hsound hsound (fun e he key hlooks hnot => hnot ⟨e, he, hlooks⟩) hvs hws
  refine ⟨hentities, ?_, ⟨?_, ?_⟩, ?_⟩
  · rcases List.forall₂_iff_zip.1 hentities with ⟨hlength, hsame⟩
    refine List.forall₂_iff_zip.2 ⟨hlength, ?_⟩
    intro v w hpair hkind
    rcases List.of_mem_zip hpair with ⟨hv, hw⟩
    have haccounted := accounted_of_mem_visits hvs v (mem_of_mem_remainingVisits hv)
    exact haccounted.unplaced_eq (accounted_of_mem_visits hws w hw) (hsame hpair) hkind
  · intro hsame
    -- What the second run locates is chosen by its own cursor.
    have hchosen := chosenFrom_of_visits hsound hws
    rwa [topLevelLocated_congr hentities hsame] at hchosen
  · intro hchosen
    exact (houtcome hchosen).imp fun v w hsame hkind =>
      hsame fun hmethod => absurd hmethod hkind
  · intro hchosen
    exact (houtcome hchosen).imp fun v w hsame _ hclass => hsame fun _ => hclass

theorem returns_of_visits (hvs : visits tabSize (.start text) (flagged.map (·.1)) = .ok vs)
    (hchosen : ChosenAlone tabSize text flagged vs)
    (hmethods : ∀ e ∈ remaining flagged, e.kind = .method →
      ¬ ExportsClass flagged e.enclosing) :
    ∃ ws, visits tabSize (.start text) (remaining flagged) = .ok ws ∧
      ws.filterMap (·.outcome) = (remainingVisits flagged vs).filterMap (·.outcome) := by
  have hsound := sound_start text
  have haligned := aligned_start text fun key => ¬ ExportsClass flagged key
  have hskip : ∀ e, (e, true) ∈ flagged → ∀ key, e.LooksUp key →
      ¬ ¬ ExportsClass flagged key := fun e he key hlooks hnot => hnot ⟨e, he, hlooks⟩
  have hkeep : ∀ e, (e, false) ∈ flagged → e.kind = .method →
      ¬ ExportsClass flagged e.enclosing := fun e he => hmethods e (mem_remaining.2 he)
  rcases haligned.returns hsound hsound hskip hkeep hvs hchosen with ⟨ws, hws⟩
  -- All remaining methods are of shared classes, so all outcomes are the same.
  have houtcome := haligned.forall₂_outcome hsound hsound hskip hvs hws hchosen
  rcases List.forall₂_iff_zip.1 houtcome with ⟨hlength, hsame⟩
  refine ⟨ws, hws, filterMap_outcome_congr (List.forall₂_iff_zip.2 ⟨hlength, ?_⟩)⟩
  intro v w hpair
  apply hsame hpair
  apply hmethods
  rw [← entities_remainingVisits (entities_of_visits hvs)]
  exact List.mem_map_of_mem (List.of_mem_zip hpair).1

/-- If both runs list the same for the remaining entities, these are chosen without the flagged
ones too. -/
theorem chosenAlone_of_visits (hvs : visits tabSize (.start text) (flagged.map (·.1)) = .ok vs)
    (hws : visits tabSize (.start text) (remaining flagged) = .ok ws)
    (h : ws.filterMap (·.outcome) = (remainingVisits flagged vs).filterMap (·.outcome)) :
    ChosenAlone tabSize text flagged vs := by
  have hcompares := compares_of_visits hvs hws
  have hlisted : (topLevelLocated ws).map (·.2) =
      (topLevelLocated (remainingVisits flagged vs)).map (·.2) := by
    rw [map_topLevelLocated fun w hw => (accounted_of_mem_visits hws w hw).describes,
      map_topLevelLocated fun v hv =>
        (accounted_of_mem_visits hvs v (mem_of_mem_remainingVisits hv)).describes, h]
  have hchosen := chosenFrom_of_visits (sound_start text) hws
  rwa [topLevelLocated_eq hcompares.entities hcompares.topLevel hlisted] at hchosen

end Run

/-! ## The two catalogues -/

/-- The catalogue with exports without the descriptors of the entities under export statements. -/
def remainingCatalog (root : Node) (source : Text) (tabSize : Nat) :
    Except Fault (List Descriptor) := do
  let flagged ← root.flaggedEntities
  let vs ← Run.visits tabSize (.start (source.normalize tabSize)) (flagged.map (·.1))
  return (Run.remainingVisits flagged vs).filterMap (·.outcome)

/-- What turning exports off does to a catalogue `ds` that the entities of the tree have with
exports. -/
structure ExportsOff (root : Node) (source : Text) (tabSize : Nat) (ds : List Descriptor)
    (flagged : List (Entity × Bool)) (vs : List Visit) : Prop where
  flags : root.flaggedEntities = .ok flagged
  discovered : discover root true = .ok (flagged.map (·.1))
  visited : Run.visits tabSize (.start (source.normalize tabSize)) (flagged.map (·.1)) = .ok vs
  listed : vs.filterMap (·.outcome) = ds
  /-- The entities under export statements are left out, and no others. -/
  discovered_off : discover root false = .ok (remaining flagged)
  /-- A catalogue without exports compares to the one with exports entity by entity. -/
  compared : ∀ ds' events', scanTree root source ⟨tabSize, false⟩ = .ok (ds', events') →
    ∃ ws,
      Run.visits tabSize (.start (source.normalize tabSize)) (remaining flagged) = .ok ws ∧
      ws.filterMap (·.outcome) = ds' ∧
      Run.Compares tabSize (source.normalize tabSize) flagged vs ws
  /-- There is one, unless a remaining entity has a name or a parameter that cannot be read or
  searched for. -/
  returns : (∀ e ∈ remaining flagged, e.Workable tabSize) →
    ∃ ds' events', scanTree root source ⟨tabSize, false⟩ = .ok (ds', events')
  /-- If no remaining method has the class of an exported entity, the remaining descriptors are
  the catalogue without exports exactly if the remaining classes, functions and variables are
  chosen without the others too. -/
  same_iff :
    (∀ e ∈ remaining flagged, e.kind = .method → ¬ ExportsClass flagged e.enclosing) →
    (Run.ChosenAlone tabSize (source.normalize tabSize) flagged vs ↔
      ∃ rest, remainingCatalog root source tabSize = .ok rest ∧
        ∃ events', scanTree root source ⟨tabSize, false⟩ = .ok (rest, events'))

/-- A scan without exports is a run over the remaining entities, so it compares to the run over all
of them. -/
theorem compares_of_scanTree {root : Node} {source : Text} {tabSize : Nat}
    {flagged : List (Entity × Bool)} {vs : List Visit}
    (hvs : Run.visits tabSize (.start (source.normalize tabSize)) (flagged.map (·.1)) = .ok vs)
    (hoff : discover root false = .ok (remaining flagged)) (ds' : List Descriptor)
    (events' : List Event) (h : scanTree root source ⟨tabSize, false⟩ = .ok (ds', events')) :
    ∃ ws, Run.visits tabSize (.start (source.normalize tabSize)) (remaining flagged) = .ok ws ∧
      ws.filterMap (·.outcome) = ds' ∧
      Run.Compares tabSize (source.normalize tabSize) flagged vs ws := by
  rcases scanTree_eq_ok_iff.1 ⟨events', h⟩ with ⟨-, _, htree⟩
  rcases catalogTree_eq_ok htree with ⟨entities, _, hdiscover, hcatalog⟩
  rcases catalog_eq_ok hcatalog with ⟨ws, hws, -, hds'⟩
  have hsame := hoff.symm.trans hdiscover
  cases hsame
  exact ⟨ws, hws, hds', Run.compares_of_visits hvs hws⟩

/-- Exports off leaves out the entities under export statements. The catalogues with and without
exports agree on which of the other classes, functions and variables they hold and on what they
say of them, but not on where these stand: `ExportsOff` says when they do. -/
theorem scanTree_without_exports (root : Node) (source : Text) (tabSize : Nat)
    (ds : List Descriptor) (events : List Event)
    (h : scanTree root source ⟨tabSize, true⟩ = .ok (ds, events)) :
    ∃ flagged vs, ExportsOff root source tabSize ds flagged vs := by
  rcases scanTree_eq_ok_iff.1 ⟨events, h⟩ with ⟨herror, _, htree⟩
  rcases catalogTree_eq_ok htree with ⟨entities, _, hdiscover, hcatalog⟩
  rcases catalog_eq_ok_iff.1 ⟨_, hcatalog⟩ with ⟨hsource, vs, hvs, hds⟩
  rcases discover_of_flagged hdiscover with ⟨flagged, hflagged, rfl, hoff⟩
  have hkept : remainingCatalog root source tabSize =
      .ok ((Run.remainingVisits flagged vs).filterMap (·.outcome)) :=
    bind_eq_ok_iff.2 ⟨flagged, hflagged, bind_eq_ok_iff.2 ⟨vs, hvs, rfl⟩⟩
  refine ⟨flagged, vs, hflagged, hdiscover, hvs, hds, hoff, compares_of_scanTree hvs hoff, ?_, ?_⟩
  · intro hworkable
    have hcatalog' : ∃ ds' events', catalog (remaining flagged) source ⟨tabSize, false⟩ =
        .ok (ds', events') := catalog_ok hsource hworkable
    rcases hcatalog' with ⟨ds', events', hcatalog'⟩
    have htree' : catalogTree root source ⟨tabSize, false⟩ = .ok (ds', _) :=
      bind_eq_ok_iff.2 ⟨_, hoff, bind_eq_ok_iff.2 ⟨_, hcatalog', rfl⟩⟩
    exact ⟨ds', scanTree_eq_ok_iff.2 ⟨herror, _, htree'⟩⟩
  · intro hmethods
    constructor
    · intro hchosen
      rcases Run.returns_of_visits hvs hchosen hmethods with ⟨ws, hws, hrest⟩
      have htree' : ∃ events', catalogTree root source ⟨tabSize, false⟩ =
          .ok (ws.filterMap (·.outcome), events') := catalogTree_of_visits hsource hoff hws
      have hscan : ∃ events', scanTree root source ⟨tabSize, false⟩ =
          .ok (ws.filterMap (·.outcome), events') :=
        scanTree_eq_ok_iff.2 ⟨herror, htree'⟩
      rw [hrest] at hscan
      exact ⟨_, hkept, hscan⟩
    · rintro ⟨rest, hrest, events', hscan⟩
      rw [hkept] at hrest
      cases hrest
      rcases compares_of_scanTree hvs hoff _ _ hscan with ⟨ws, hws, hds', -⟩
      exact Run.chosenAlone_of_visits hvs hws hds'

/-- The function `b` of the samples without parameters. -/
def exportedAt (indent : Int) : Descriptor :=
  ⟨.function, 1, indent, "function b() \x7b".toList, none, some [], none, ['b']⟩

/-- The function of `exporting` that is not exported stays where it is, and is chosen there. -/
theorem exporting_without_exports :
    exportingTree.OfSource exporting ∧
    (∃ events, scanTree exportingTree exporting ⟨0, true⟩ =
      .ok ([exportedAt 7, functionAt 22], events)) ∧
    (∃ events, scanTree exportingTree exporting ⟨0, false⟩ = .ok ([functionAt 22], events)) ∧
    ∃ flagged vs,
      ExportsOff exportingTree exporting 0 [exportedAt 7, functionAt 22] flagged vs ∧
      Run.ChosenAlone 0 (exporting.normalize 0) flagged vs := by
  have hon : scanTree exportingTree exporting ⟨0, true⟩ =
      .ok ([exportedAt 7, functionAt 22], [.discovered 2, .located 2 2]) := by
    decide +kernel
  have hoff : scanTree exportingTree exporting ⟨0, false⟩ =
      .ok ([functionAt 22], [.discovered 1, .located 1 1]) := by
    decide +kernel
  have hrest : remainingCatalog exportingTree exporting 0 = .ok [functionAt 22] := by
    decide +kernel
  have hkinds : (discover exportingTree false).map (·.map (·.kind)) = .ok [.function] := by
    decide +kernel
  rcases scanTree_without_exports exportingTree exporting 0 _ _ hon with ⟨flagged, vs, hexports⟩
  refine ⟨by decide +kernel, ⟨_, hon⟩, ⟨_, hoff⟩, flagged, vs, hexports, ?_⟩
  have hfunction : (remaining flagged).map (·.kind) = [.function] := by
    rw [hexports.discovered_off] at hkinds
    exact Except.ok.inj hkinds
  have hmethods : ∀ e ∈ remaining flagged, e.kind = .method →
      ¬ ExportsClass flagged e.enclosing := by
    intro e he hkind
    have hmem := List.mem_map_of_mem (f := (·.kind)) he
    rw [hfunction, hkind] at hmem
    cases List.mem_singleton.1 hmem
  exact (hexports.same_iff hmethods).2 ⟨_, hrest, _, hoff⟩

/-- What remains of a catalogue need not keep its place: without the exported function in front
of it, a function is found in the body of that function. -/
theorem shadowing_moved_without_exports :
    ¬ ∀ (root : Node) (source : Text) (tabSize : Nat) (ds rest : List Descriptor)
      (events : List Event), root.OfSource source →
      scanTree root source ⟨tabSize, true⟩ = .ok (ds, events) →
      remainingCatalog root source tabSize = .ok rest →
      ∃ events', scanTree root source ⟨tabSize, false⟩ = .ok (rest, events') := by
  intro hall
  have hon : scanTree shadowingTree shadowing ⟨0, true⟩ =
      .ok ([exportedAt 7, functionAt 37], [.discovered 2, .located 2 2]) := by
    decide +kernel
  have hoff : scanTree shadowingTree shadowing ⟨0, false⟩ =
      .ok ([functionAt 21], [.discovered 1, .located 1 1]) := by
    decide +kernel
  have hrest : remainingCatalog shadowingTree shadowing 0 = .ok [functionAt 37] := by
    decide +kernel
  rcases hall shadowingTree shadowing 0 _ _ _ (by decide +kernel) hon hrest with ⟨events', h⟩
  rw [hoff] at h
  have hmoved : [functionAt 21] = [functionAt 37] := congrArg Prod.fst (Except.ok.inj h)
  exact absurd hmoved (by decide)

end HeaderCatalog
