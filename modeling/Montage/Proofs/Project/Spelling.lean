import Montage.Proofs.Manifest.Entry
import Montage.Proofs.Project.Built

/-! Second names. Some fields of a text, an effect or a clip go by two names. An entry that holds a
field under one of them may hold it under the other: nothing that is read from it changes, neither
the project nor the fault that is found first. -/
namespace Montage

/-- What stood under `a` stands under `b`, under which nothing stood, and `a` is gone. Where in the
mapping it stands does not matter. -/
structure Renamed (a b : String) (es es' : List (Scalar × Value)) : Prop where
  only : entryAt? es b = none
  gone : entryAt? es' a = none
  moved : entryAt? es' b = entryAt? es a
  others : ∀ key, key ≠ a → key ≠ b → entryAt? es' key = entryAt? es key

/-- Any number of fields renamed, one after the other. -/
inductive Respelled (names : List (String × String)) :
    List (Scalar × Value) → List (Scalar × Value) → Prop where
  | same (es : List (Scalar × Value)) : Respelled names es es
  | renamed {a b : String} {es es' es'' : List (Scalar × Value)}
      (known : (a,b) ∈ names ∨ (b,a) ∈ names) (step : Renamed a b es es')
      (rest : Respelled names es' es'') : Respelled names es es''

/-- An entry as it was, or with fields under their other names. -/
inductive Respelt (names : List (String × String)) : Value → Value → Prop where
  | same (v : Value) : Respelt names v v
  | entry {es es' : List (Scalar × Value)} (spelled : Respelled names es es') :
      Respelt names (.mapping es) (.mapping es')

/-- A part of a manifest as it was, or a list any of whose entries are respelt. -/
inductive RespeltItems (names : List (String × String)) : Option Value → Option Value → Prop where
  | same (v : Option Value) : RespeltItems names v v
  | list {vs vs' : List Value} (each : List.Forall₂ (Respelt names) vs vs') :
      RespeltItems names (some (.list vs)) (some (.list vs'))

/-- The key `a` of a mapping written as `b`. -/
def respell (a b : String) (es : List (Scalar × Value)) : List (Scalar × Value) :=
  es.map fun e => if e.1 = .text a then (.text b,e.2) else e

section
variable {a b : String} {es es' : List (Scalar × Value)}

theorem entryCons (k : Scalar) (v : Value) (es : List (Scalar × Value)) (key : String) :
    entryAt? ((k,v) :: es) key = if k = .text key then some v.bare else entryAt? es key := rfl

theorem respellRenamed (apart : a ≠ b) (only : entryAt? es b = none) :
    Renamed a b es (respell a b es) := by
  have swapped : Scalar.text b ≠ .text a := fun same => apart (Scalar.text.inj same).symm
  induction es with
  | nil => exact ⟨rfl,rfl,rfl,fun _ _ _ => rfl⟩
  | cons e es ih =>
    obtain ⟨k,v⟩ := e
    have absent : k ≠ .text b := fun same => by rw [entryCons,if_pos same] at only; cases only
    rw [entryCons,if_neg absent] at only
    have rest := ih only
    unfold respell
    rw [List.map_cons]
    change Renamed a b _ (_ :: respell a b es)
    -- Where this is the key, it hides any other place of it, before and after.
    by_cases here : k = .text a
    · rw [if_pos here]
      refine ⟨?_,?_,?_,fun key first second => ?_⟩
      · rw [entryCons,if_neg absent,only]
      · rw [entryCons,if_neg swapped,rest.gone]
      · rw [entryCons,entryCons,if_pos rfl,if_pos here]
      · rw [entryCons,entryCons,here,if_neg fun same => second (Scalar.text.inj same).symm,
          if_neg fun same => first (Scalar.text.inj same).symm,rest.others key first second]
    · rw [if_neg here]
      refine ⟨?_,?_,?_,fun key first second => ?_⟩
      · rw [entryCons,if_neg absent,only]
      · rw [entryCons,if_neg here,rest.gone]
      · rw [entryCons,entryCons,if_neg absent,if_neg here,rest.moved]
      · rw [entryCons,entryCons,rest.others key first second]

theorem foundBoth (es : List (Scalar × Value)) (a b : String) :
    Entry.found es [a,b] = (entryAt? es a).or (entryAt? es b) := by
  unfold Entry.found
  rw [List.findSome?_cons,List.findSome?_cons,List.findSome?_nil]
  cases entryAt? es a <;> cases entryAt? es b <;> rfl

theorem foundOthers (step : Renamed a b es es') {keys : List String} (first : a ∉ keys)
    (second : b ∉ keys) : Entry.found es' keys = Entry.found es keys :=
  Entry.foundSame fun key mem => step.others key (fun same => first (same ▸ mem))
    fun same => second (same ▸ mem)

theorem foundEither (step : Renamed a b es es') {keys : List String}
    (either : keys = [a,b] ∨ keys = [b,a]) : Entry.found es' keys = Entry.found es keys := by
  rcases either with rfl | rfl <;>
    rw [foundBoth,foundBoth,step.gone,step.moved,step.only,Option.none_or,Option.or_none]

/-- A field goes by both names of a pair, in their order, or by neither. -/
def Paired (names : List (String × String)) (fields : List (List String)) : Prop :=
  ∀ pair ∈ names, ∀ keys ∈ fields, keys = [pair.1,pair.2] ∨ pair.1 ∉ keys ∧ pair.2 ∉ keys

instance (names : List (String × String)) : Std.Refl (Respelt names) := ⟨.same⟩

instance (names : List (String × String)) (fields : List (List String)) :
    Decidable (Paired names fields) := by
  unfold Paired
  infer_instance

theorem Respelled.found {names : List (String × String)} {fields : List (List String)}
    (paired : Paired names fields) (spelled : Respelled names es es') :
    ∀ keys ∈ fields, Entry.found es' keys = Entry.found es keys := by
  induction spelled with
  | same es => exact fun _ _ => rfl
  | renamed known step rest ih =>
    intro keys mem
    rw [ih keys mem]
    rcases known with known | known
    · rcases paired _ known keys mem with both | ⟨first,second⟩
      · exact foundEither step (.inl both)
      · exact foundOthers step first second
    · rcases paired _ known keys mem with both | ⟨first,second⟩
      · exact foundEither step (.inr both)
      · exact foundOthers step second first

end

namespace Project

def textNames : List (String × String) := [("font_size","fontSize"),("align","alignment")]

def effectNames : List (String × String) :=
  [("kind","type"),("start","startTime"),("end","endTime")]

def clipNames : List (String × String) :=
  [("track","type"),("start","startTime"),("end","endTime"),("path","source"),("text","textId"),
    ("effect","effectId")]

/-- The fields of a text, each with the keys that it is looked for under. -/
def textFields : List (List String) :=
  [["id"],["content"],["animation"],["x"],["y"],["font_size","fontSize"],["color"],["bold"],
    ["italic"],["underline"],["align","alignment"]]

def effectFields : List (List String) :=
  [["id"],["kind","type"],["intensity"],["start","startTime"],["end","endTime"]]

def clipFields : List (List String) :=
  [["id"],["track","type"],["start","startTime"],["path","source"],["end","endTime"],
    ["text","textId"],["effect","effectId"]]

section
variable {es es' : List (Scalar × Value)}

theorem overlayAgree (agree : ∀ keys ∈ textFields, Entry.found es' keys = Entry.found es keys)
    (i : Nat) : overlay i (.mapping es') = overlay i (.mapping es) := by
  simp only [textFields,List.forall_mem_cons] at agree
  obtain ⟨id,content,animation,x,y,size,color,bold,italic,underline,align,_⟩ := agree
  simp only [overlay,Entry.hasMapping,Entry.underMapping,Entry.getMapping,Entry.firstMapping,
    id,content,animation,x,y,size,color,bold,italic,underline,align]

theorem effectAgree (agree : ∀ keys ∈ effectFields, Entry.found es' keys = Entry.found es keys)
    (i : Nat) : effect i (.mapping es') = effect i (.mapping es) := by
  simp only [effectFields,List.forall_mem_cons] at agree
  obtain ⟨id,kind,intensity,start,stop,_⟩ := agree
  simp only [effect,Entry.hasMapping,Entry.underMapping,Entry.getMapping,Entry.firstMapping,
    id,kind,intensity,start,stop]

theorem clipAgree (agree : ∀ keys ∈ clipFields, Entry.found es' keys = Entry.found es keys)
    (media : Media) (probe : Bool) (paths : List (Scalar × Value)) (i : Nat) :
    clip media probe paths i (.mapping es') = clip media probe paths i (.mapping es) := by
  simp only [clipFields,List.forall_mem_cons] at agree
  obtain ⟨id,track,start,path,stop,text,effect,_⟩ := agree
  simp only [clip,trackOf,startOf,sourceOf,stopOf,refOf,Entry.hasMapping,Entry.underMapping,
    Entry.firstMapping,id,track,start,path,stop,text,effect]

end

section
variable {names : List (String × String)} {vs vs' : List Value}

theorem overlayRespelt {v v' : Value} (same : Respelt textNames v v') (i : Nat) :
    overlay i v' = overlay i v := by
  cases same with
  | same => rfl
  | entry spelled => exact overlayAgree (spelled.found (by decide)) i

theorem effectRespelt {v v' : Value} (same : Respelt effectNames v v') (i : Nat) :
    effect i v' = effect i v := by
  cases same with
  | same => rfl
  | entry spelled => exact effectAgree (spelled.found (by decide)) i

theorem clipRespelt {v v' : Value} (same : Respelt clipNames v v') (media : Media) (probe : Bool)
    (paths : List (Scalar × Value)) (i : Nat) :
    clip media probe paths i v' = clip media probe paths i v := by
  cases same with
  | same => rfl
  | entry spelled => exact clipAgree (spelled.found (by decide)) media probe paths i

theorem addOverlaysRespelt (same : List.Forall₂ (Respelt textNames) vs vs') (tl : Timeline)
    (i : Nat) : addOverlays tl i vs' = addOverlays tl i vs := by
  induction same generalizing tl i with
  | nil => rfl
  | cons here rest ih =>
    unfold addOverlays
    rw [overlayRespelt here]
    exact bind_congr fun ⟨t,composite⟩ => bind_congr fun tl => ih tl (i + 1)

theorem addEffectsRespelt (same : List.Forall₂ (Respelt effectNames) vs vs') (tl : Timeline)
    (i : Nat) : addEffects tl i vs' = addEffects tl i vs := by
  induction same generalizing tl i with
  | nil => rfl
  | cons here rest ih =>
    unfold addEffects
    rw [effectRespelt here]
    exact bind_congr fun e => bind_congr fun ⟨_,tl⟩ => ih tl (i + 1)

theorem addClipsRespelt (same : List.Forall₂ (Respelt clipNames) vs vs') (media : Media)
    (probe : Bool) (paths : List (Scalar × Value)) (tl : Timeline) (i : Nat) :
    addClips media probe paths tl i vs' = addClips media probe paths tl i vs := by
  induction same generalizing tl i with
  | nil => rfl
  | cons here rest ih =>
    unfold addClips
    rw [clipRespelt here]
    exact bind_congr fun c => bind_congr fun tl => ih tl (i + 1)

theorem itemsRespelt {v v' : Option Value} (same : RespeltItems names v v') {β : Type}
    {k k' : List Value → Probing β}
    (rest : ∀ vs vs', List.Forall₂ (Respelt names) vs vs' → k' vs' = k vs) :
    (liftM (Entry.items v') >>= k') = (liftM (Entry.items v) >>= k) := by
  cases same with
  | same => exact bind_congr fun vs => rest vs vs (List.forall₂_refl vs)
  | list each =>
    rename_i vs vs'
    have bare : List.Forall₂ (Respelt names) (vs.map Value.bare) (vs'.map Value.bare) := by
      refine List.forall₂_map_left_iff.mpr (List.forall₂_map_right_iff.mpr (each.imp ?_))
      intro v v' same
      cases same with
      | same => exact .same _
      | entry spelled => exact .entry spelled
    rw [Entry.itemsList,Entry.itemsList]
    exact rest _ _ bare

end

/-- A manifest that differs in the names of fields of its texts, effects and clips only. -/
structure Respelling (raw raw' : List (Scalar × Value)) : Prop where
  video : entryAt? raw' "video" = entryAt? raw "video"
  paths : entryAt? raw' "paths" = entryAt? raw "paths"
  length : entryAt? raw' "duration" = entryAt? raw "duration"
  texts : RespeltItems textNames (entryAt? raw "texts") (entryAt? raw' "texts")
  effects : RespeltItems effectNames (entryAt? raw "effects") (entryAt? raw' "effects")
  clips : RespeltItems clipNames (entryAt? raw "clips") (entryAt? raw' "clips")

theorem buildRespelt {raw raw' : List (Scalar × Value)} (same : Respelling raw raw') (media : Media)
    (probe : Bool) : build media probe (.mapping raw') = build media probe (.mapping raw) := by
  have length : lengthIn raw' = lengthIn raw := by
    unfold lengthIn
    rw [same.length]
  change ofEntries media probe raw' = ofEntries media probe raw
  unfold ofEntries
  rw [same.video,same.paths,length]
  refine bind_congr fun video => bind_congr fun ⟨width,height⟩ => bind_congr fun rate =>
    bind_congr fun paths => ?_
  refine itemsRespelt same.texts fun texts texts' each => ?_
  rw [addOverlaysRespelt each]
  refine bind_congr fun tl => itemsRespelt same.effects fun effects effects' each => ?_
  rw [addEffectsRespelt each]
  refine bind_congr fun tl => itemsRespelt same.clips fun clips clips' each => ?_
  rw [addClipsRespelt each]

def titled (text clip : List (Scalar × Value)) : List (Scalar × Value) :=
  [(.text "texts",.list [.mapping text]),(.text "clips",.list [.mapping clip])]

def title : List (Scalar × Value) :=
  [(.text "id",.text "t"),(.text "content",.text "Hello"),(.text "font_size",.whole 24)]

def opening : List (Scalar × Value) :=
  [(.text "id",.text "a"),(.text "track",.text "video"),(.text "path",.text "a.mp4"),
    (.text "start",.whole 1)]

/-- The start and the kind of track go by their other names, and the end is left out of both. -/
theorem titledRespelt :
    Respelling (titled title opening) (titled (respell "font_size" "fontSize" title)
      (respell "track" "type" (respell "start" "startTime" opening))) ∧
    ∃ project log, (build [] false (.mapping (titled title opening))).run [] = (.ok project,log) ∧
      (build [] false (.mapping (titled (respell "font_size" "fontSize" title)
        (respell "track" "type" (respell "start" "startTime" opening))))).run [] =
          (.ok project,log) := by
  have text : Respelled textNames title (respell "font_size" "fontSize" title) :=
    .renamed (.inl (by decide)) (respellRenamed (by decide) rfl) (.same _)
  have clip : Respelled clipNames opening
      (respell "track" "type" (respell "start" "startTime" opening)) :=
    .renamed (.inl (by decide)) (respellRenamed (by decide) rfl)
      (.renamed (.inl (by decide)) (respellRenamed (by decide) rfl) (.same _))
  have same : Respelling (titled title opening) (titled (respell "font_size" "fontSize" title)
      (respell "track" "type" (respell "start" "startTime" opening))) :=
    ⟨rfl,rfl,rfl,.list (.cons (.entry text) .nil),.same _,.list (.cons (.entry clip) .nil)⟩
  refine ⟨same,?_⟩
  rw [buildRespelt same]
  obtain ⟨project,log,made⟩ := probeAnswered (build [] false (.mapping (titled title opening))) []
    (by decide +kernel)
  exact ⟨project,log,made,made⟩

end Project
end Montage
