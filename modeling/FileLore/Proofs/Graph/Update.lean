import FileLore.Graph.Update
import FileLore.Proofs.Json.Members
import FileLore.Proofs.Remote.Watched
import FileLore.Proofs.Source.Reading
import Mathlib.Data.List.ReduceOption

/-!
# Updates of the graph are accounted for

A caller asks for any number of updates, one after the other: of files that have
changed, of what they import, of activities. Each makes one call or none, and answers
whether a call was made and taken, whatever the executor does (`updates_accounted`).
A change is not recorded just if the file is empty or cannot be read, and imports are
not just if there are none.

Everything that is told about one file names the same node, the one with the base
name of the path. Nodes are read off what is sent: they stand under another name in
each of the three kinds of calls (`nodes_createEntities` and the two after it).
-/

namespace FileLore

/-- What the items of a list in a call's parameters have under a name. -/
def Call.nodes (call : Call) (list name : String) : List Json :=
  match call.parameters.member? list with
  | some (.array items) => items.filterMap (·.member? name)
  | _ => []

namespace Graph

/-! ## Nodes -/

theorem nodes_listCall {α : Type} {toJson : α → Json} {node : α → String} {name : String}
    (h : ∀ item, (toJson item).member? name = some (.string (node item)))
    (tool list : String) (items : List α) :
    (listCall tool list (items.map toJson)).nodes list name =
      items.map fun item => .string (node item) := by
  have hlist : (listCall tool list (items.map toJson)).parameters.member? list =
      some (.array (items.map toJson)) := by
    rw [listCall, Json.member?_ofMembers, List.reverse_singleton, Json.Members.lookup_cons,
      if_pos rfl]
  rw [Call.nodes, hlist]
  dsimp only
  rw [List.filterMap_map]
  exact List.filterMap_eq_map_iff_forall_eq_some.mpr fun item _ => h item

theorem nodes_createEntities (entities : List Entity) :
    (createEntities entities).nodes "entities" "name" = entities.map (.string ·.name) :=
  nodes_listCall (fun _ => Json.member?_ofMembers ..) _ _ entities

theorem nodes_addObservations (updates : List ObservationUpdate) :
    (addObservations updates).nodes "observations" "entityName" =
      updates.map (.string ·.entityName) :=
  nodes_listCall (fun _ => Json.member?_ofMembers ..) _ _ updates

theorem nodes_createRelations (relations : List Relation) :
    (createRelations relations).nodes "relations" "from" = relations.map (.string ·.source) :=
  nodes_listCall (fun _ => Json.member?_ofMembers ..) _ _ relations

/-- Every import of a file starts from the node of the file. -/
theorem source_of_mem_ofImports {path source : String} {relation : Relation}
    (h : relation ∈ Relation.ofImports path source) : relation.source = Path.baseName path := by
  rw [Relation.ofImports] at h
  split at h
  · obtain ⟨target, -, rfl⟩ := List.mem_map.mp h
    rfl
  · cases h

/-! ## Updates -/

/-- An update of the graph. The content of a file may be given; if it is not, the file is read. -/
inductive Update where
  | entity (path : String) (change : FileChange) (content : Option String)
  | relationships (path : String) (content : Option String)
  | activity (action path details : String) (now : Int)

/-- Whether there is nothing in a file: the content that is given is empty or, if none is, the file
is empty or cannot be read. -/
def IsBare (disk : Disk) (path : String) : Option String → Prop
  | some source => source = ""
  | none =>
    match disk.contentOf path with
    | .ok content => content.size = 0
    | .error _ => True

namespace Update

variable {σ : Type}

/-- Carries out an update for a project, the file being read from a disk. -/
def perform (executor : Executor σ) (project : String) : Disk × Update → StateM σ Bool
  | (disk, entity path change content) =>
    recordEntity executor path change ((givenOrRead path content).run disk).1
  | (disk, relationships path content) =>
    recordRelationships executor path ((givenOrRead path content).run disk).1
  | (_, activity action path details now) =>
    recordActivity executor project action path details now

/-- What an update has to ask for: a change of a file to be recorded unless there is nothing in the
file, its imports unless there are none, an activity in any case. -/
def Fits (project : String) : Disk × Update → Option Call → Prop
  | (disk, entity path change content), call? =>
    let record := FileRecord.of path (content <|> sourceOn? disk path)
    (call? = none ↔ IsBare disk path content) ∧
      ∀ call ∈ call?,
        match change with
        | .created => call = createEntities [Entity.ofRecord record] ∧
          call.nodes "entities" "name" = [.string (Path.baseName path)]
        | .edited => call = addObservations [ObservationUpdate.ofRecord record] ∧
          call.nodes "observations" "entityName" = [.string (Path.baseName path)]
  | (disk, relationships path content), call? =>
    let relations := Relation.ofImports path ((content <|> sourceOn? disk path).getD "")
    (call? = none ↔ relations = []) ∧
      ∀ call ∈ call?, call = createRelations relations ∧
        call.nodes "relations" "from" = relations.map fun _ => .string (Path.baseName path)
  | (_, activity action path details now), call? =>
    call? = some (createEntities [Entity.ofActivity action path project details now])

/-- The call that an update makes, if it makes one. -/
def call? (project : String) : Disk × Update → Option Call
  | (disk, entity path change content) =>
    entityCall? path change (content <|> sourceOn? disk path)
  | (disk, relationships path content) => relationsCall? path (content <|> sourceOn? disk path)
  | (_, activity action path details now) =>
    some (createEntities [Entity.ofActivity action path project details now])

theorem perform_eq (executor : Executor σ) (project : String) (update : Disk × Update) :
    perform executor project update = deliverAny executor (call? project update) := by
  obtain ⟨disk, update⟩ := update
  cases update with
  | entity path change content => rw [perform, givenOrRead_run]; rfl
  | relationships path content => rw [perform, givenOrRead_run]; rfl
  | activity action path details now => rfl

/-- A file counts as looked at unless there is nothing in it. -/
theorem analyzed_eq_false_iff (disk : Disk) (path : String) (content : Option String) :
    (FileRecord.of path (content <|> sourceOn? disk path)).analyzed = false ↔
      IsBare disk path content := by
  rw [FileRecord.of]
  dsimp only
  rw [Bool.not_eq_false', String.isEmpty_iff]
  cases content with
  | some source => rfl
  | none =>
    show (sourceOn? disk path).getD "" = "" ↔ _
    rw [IsBare, sourceOn?]
    cases disk.contentOf path with
    | ok content => exact Text.lossyText_eq_empty_iff
    | error reason => exact iff_of_true rfl trivial

theorem fits_entity (project : String) (disk : Disk) (path : String) (change : FileChange)
    (content : Option String) :
    Fits project (disk, entity path change content)
      (call? project (disk, entity path change content)) := by
  have hbare := analyzed_eq_false_iff disk path content
  rw [Fits, call?, entityCall?.eq_def]
  dsimp only
  cases h : (FileRecord.of path (content <|> sourceOn? disk path)).analyzed with
  | false => exact ⟨iff_of_true rfl (hbare.mp h), nofun⟩
  | true =>
    have hfull : ¬ IsBare disk path content := fun hempty => by
      rw [hbare.mpr hempty] at h
      cases h
    cases change with
    | created =>
      refine ⟨iff_of_false nofun hfull, ?_⟩
      rintro call ⟨⟩
      exact ⟨rfl, nodes_createEntities _⟩
    | edited =>
      refine ⟨iff_of_false nofun hfull, ?_⟩
      rintro call ⟨⟩
      exact ⟨rfl, nodes_addObservations _⟩

theorem fits_relationships (project : String) (disk : Disk) (path : String)
    (content : Option String) :
    Fits project (disk, relationships path content)
      (call? project (disk, relationships path content)) := by
  rw [Fits, call?, relationsCall?]
  cases h : Relation.ofImports path ((content <|> sourceOn? disk path).getD "") with
  | nil => exact ⟨iff_of_true rfl rfl, nofun⟩
  | cons first rest =>
    refine ⟨iff_of_false nofun nofun, ?_⟩
    rintro call ⟨⟩
    refine ⟨rfl, (nodes_createRelations _).trans (List.map_congr_left fun relation hmem => ?_)⟩
    rw [source_of_mem_ofImports (h ▸ hmem)]

theorem fits_call? (project : String) (update : Disk × Update) :
    Fits project update (call? project update) := by
  obtain ⟨disk, update⟩ := update
  cases update with
  | entity path change content => exact fits_entity project disk path change content
  | relationships path content => exact fits_relationships project disk path content
  | activity action path details now => rfl

/-! ## One after the other -/

/-- A call that is made if there is one adds itself to the account and was taken just if it was
made and taken. -/
theorem deliverAny_watched (executor : Executor σ) (call? : Option Call) (state : σ)
    (before : List Exchange) :
    ∃ (made : Option Exchange) (next : σ), made.map (·.call) = call? ∧
      deliverAny executor call? state = (made.any (·.isTaken), next) ∧
      deliverAny executor.watched call? (state, before) =
        (made.any (·.isTaken), (next, before ++ made.toList)) := by
  cases call? with
  | none => exact ⟨none, state, rfl, rfl, by rw [Option.toList_none, List.append_nil]; rfl⟩
  | some call =>
    obtain ⟨exchange, next, rfl, hplain, hwatched⟩ := executor.deliver_watched call state before
    exact ⟨some exchange, next, rfl, hplain, hwatched⟩

theorem mapM_perform_cons (executor : Executor σ) (project : String) (update : Disk × Update)
    (rest : List (Disk × Update)) (state : σ) :
    (update :: rest).mapM (perform executor project) state =
      let (answer, next) := perform executor project update state
      let (answers, last) := rest.mapM (perform executor project) next
      (answer :: answers, last) := by
  rw [List.mapM_cons]
  rfl

/-- Updates one after the other are each answered for the call that they make, and the account is
that of these calls in the order of the updates. -/
theorem mapM_perform_watched (executor : Executor σ) (project : String)
    (updates : List (Disk × Update)) :
    ∀ (state : σ) (before : List Exchange), ∃ (made : List (Option Exchange)) (last : σ),
      updates.mapM (perform executor project) state = (made.map (·.any (·.isTaken)), last) ∧
      updates.mapM (perform executor.watched project) (state, before) =
        (made.map (·.any (·.isTaken)), (last, before ++ made.reduceOption)) ∧
      List.Forall₂ (fun update exchange? => Fits project update (exchange?.map (·.call)))
        updates made := by
  induction updates with
  | nil =>
    intro state before
    refine ⟨[], state, rfl, ?_, .nil⟩
    rw [List.reduceOption_nil, List.append_nil]
    rfl
  | cons update rest ih =>
    intro state before
    obtain ⟨exchange?, next, hcall, hfirst, hfirst'⟩ :=
      deliverAny_watched executor (call? project update) state before
    obtain ⟨made, last, hrest, hrest', hfits⟩ := ih next (before ++ exchange?.toList)
    refine ⟨exchange? :: made, last, ?_, ?_, .cons (hcall ▸ fits_call? project update) hfits⟩
    · rw [mapM_perform_cons, perform_eq, hfirst]
      dsimp only
      rw [hrest]
      rfl
    · have hlog : (exchange? :: made).reduceOption = exchange?.toList ++ made.reduceOption := by
        cases exchange? <;> rfl
      rw [mapM_perform_cons, perform_eq, hfirst']
      dsimp only
      rw [hrest', hlog, List.append_assoc]
      rfl

end Update

/-- **Updates of the graph are accounted for**: each makes the one call that it has to make, or none
where there is nothing to record, and answers whether a call was made and taken, whatever the
executor does. So there are as many such answers as calls that were taken, and the calls that were
taken stand in the order of the updates. -/
theorem updates_accounted (executor : Executor σ) (project : String) (state : σ)
    (updates : List (Disk × Update)) :
    ∃ (made : List (Option Exchange)) (last : σ),
      updates.mapM (Update.perform executor project) state =
        (made.map (·.any (·.isTaken)), last) ∧
      updates.mapM (Update.perform executor.watched project) (state, []) =
        (made.map (·.any (·.isTaken)), (last, made.reduceOption)) ∧
      List.Forall₂ (fun update exchange? => Update.Fits project update (exchange?.map (·.call)))
        updates made ∧
      (made.map (·.any (·.isTaken))).count true = made.reduceOption.countP (·.isTaken) ∧
      made.reduceOption.filter (·.isTaken) = made.filterMap (·.filter (·.isTaken)) := by
  obtain ⟨made, last, hplain, hwatched, hfits⟩ :=
    Update.mapM_perform_watched executor project updates state []
  refine ⟨made, last, hplain, hwatched, hfits, ?_, ?_⟩
  · rw [List.count_eq_countP, List.countP_map, List.reduceOption, List.countP_filterMap]
    refine List.countP_congr fun exchange? _ => ?_
    cases exchange? <;> simp
  · rw [List.reduceOption, List.filter_filterMap]
    rfl

end Graph

end FileLore
