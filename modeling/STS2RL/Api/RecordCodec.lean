import STS2RL.Api.PyValue
import STS2RL.Core.JsonSort

/-!
# Records Read From Values

A codec reads a typed value from decoded data and writes it back. A record is read
member by member, each by a codec of its own, and may keep the members it has no
field for under one more name; flattening a record writes that name too, at every
level, and dropping the name everywhere gives what is read again.

A codec says so by three laws: what is written is read as what it was, flattening
and dropping comes to the same as writing and dropping, and a value that lacks the
name is read as something whose writing lacks it. Each way of building a codec from
others carries the laws along, so a format of any depth has them by construction.

## Main definitions

* `Codec`: A type that is read and written, with the laws.
* `Codec.listOf`, `Codec.nullable`, `Codec.nonFalsy`, `Codec.mapOf`: Codecs from codecs.
* `Schema`, `RecordType`: The members of a record, and a record type.
* `Codec.plain`: A value, flattened, without the name.

## Theorems

* `Codec.decode_plain`: What is flattened is read as what it was.
-/

namespace STS2RL

namespace Api

/-- The members that have a name. -/
def isNamed (name : String) (key : PyStr) : Bool := key = .text name

/-- A pair with the name in front, as `dict` takes it. -/
def startsPair (name : String) : List Json → Bool
  | [.str key, _] => isNamed name key
  | _ => false

mutual

/-- Whether no dictionary in the value has the name as a key, whether it is written as
    an object or as a list of pairs. -/
def lacksName (name : String) : Json → Bool
  | .list xs => !startsPair name xs && lacksNameList name xs
  | .obj fields => lacksNameFields name fields
  | _ => true

/-- No item has the name, at any depth. -/
def lacksNameList (name : String) : List Json → Bool
  | [] => true
  | x :: xs => lacksName name x && lacksNameList name xs

/-- No member has the name, at any depth. -/
def lacksNameFields (name : String) : Fields → Bool
  | [] => true
  | (k, v) :: rest => !isNamed name k && lacksName name v && lacksNameFields name rest

end

/-!
### Values without a name

A value lacks a name when no object in it has a member under it.
-/

section Names

variable {name : String}

theorem lacksNameList_iff (xs : List Json) :
    lacksNameList name xs = true ↔ ∀ x ∈ xs, lacksName name x = true := by
  induction xs with
  | nil => simp [lacksNameList]
  | cons x xs ih => simp [lacksNameList, ih]

theorem lacksNameFields_iff (fields : Fields) :
    lacksNameFields name fields = true ↔
      ∀ e ∈ fields, isNamed name e.1 = false ∧ lacksName name e.2 = true := by
  induction fields with
  | nil => simp [lacksNameFields]
  | cons e rest ih => simp [lacksNameFields, ih]

mutual

theorem lacksKeys_of_lacksName : (v : Json) → lacksName name v = true →
    v.lacksKeys (isNamed name) = true
  | .null, _ | .bool _, _ | .int _, _ | .float _, _ | .str _, _ => rfl
  | .list xs, h => by
      rw [lacksName, Bool.and_eq_true] at h
      exact lacksKeysList_of_lacksName xs h.2
  | .obj fields, h => lacksKeysFields_of_lacksName fields h

theorem lacksKeysList_of_lacksName : (xs : List Json) → lacksNameList name xs = true →
    Json.lacksKeysList (isNamed name) xs = true
  | [], _ => rfl
  | x :: xs, h => by
      rw [lacksNameList, Bool.and_eq_true] at h
      rw [Json.lacksKeysList, lacksKeys_of_lacksName x h.1, lacksKeysList_of_lacksName xs h.2]
      rfl

theorem lacksKeysFields_of_lacksName : (fields : Fields) → lacksNameFields name fields = true →
    Json.lacksKeysFields (isNamed name) fields = true
  | [], _ => rfl
  | (k, v) :: rest, h => by
      rw [lacksNameFields, Bool.and_eq_true, Bool.and_eq_true] at h
      rw [Json.lacksKeysFields, h.1.1, lacksKeys_of_lacksName v h.1.2,
        lacksKeysFields_of_lacksName rest h.2]
      rfl

end

end Names

/-- A type that is read and written. `asdict` writes more than `encode` does: what a
    record keeps of the members it has no field for, under the name. -/
structure Codec (name : String) (α : Type) where
  decode : Json → Except PyException α
  encode : α → Json
  asdict : α → Json
  /-- No record inside keeps a member it has no field for. -/
  Known : α → Prop
  decode_encode : ∀ a, Known a → decode (encode a) = .ok a
  dropKeys_asdict : ∀ a, (asdict a).dropKeys (isNamed name) = (encode a).dropKeys (isNamed name)
  lacks_of_decode : ∀ v a, decode v = .ok a → lacksName name v = true →
    (encode a).lacksKeys (isNamed name) = true

namespace Codec

variable {name : String} {α : Type} (codec : Codec name α)

/-- A value, flattened, without the name. -/
def plain (a : α) : Json := (codec.asdict a).dropKeys (isNamed name)

theorem plain_eq {a : α} (hfree : (codec.encode a).lacksKeys (isNamed name) = true) :
    codec.plain a = codec.encode a := by
  rw [plain, codec.dropKeys_asdict, Json.dropKeys_of_lacks _ _ hfree]

/-- What is flattened is read as what it was. -/
theorem decode_plain {a : α} (hknown : codec.Known a)
    (hfree : (codec.encode a).lacksKeys (isNamed name) = true) :
    codec.decode (codec.plain a) = .ok a := by
  rw [codec.plain_eq hfree, codec.decode_encode a hknown]

/-!
### Scalars

A value that is taken as it is, and those that go through a coercion of Python.
-/

section Scalars

/-- A codec that writes no members. -/
def scalar (decode : Json → Except PyException α) (encode : α → Json)
    (hdecode : ∀ a, decode (encode a) = .ok a)
    (hlacks : ∀ a, (encode a).lacksKeys (isNamed name) = true) : Codec name α where
  decode := decode
  encode := encode
  asdict := encode
  Known := fun _ => True
  decode_encode := fun a _ => hdecode a
  dropKeys_asdict := fun _ => rfl
  lacks_of_decode := fun _ a _ _ => hlacks a

/-- A value taken as it is. -/
def raw : Codec name Json where
  decode := .ok
  encode := id
  asdict := id
  Known := fun _ => True
  decode_encode := fun _ _ => rfl
  dropKeys_asdict := fun _ => rfl
  lacks_of_decode := fun _ _ hread hlacks => by
    cases hread
    exact lacksKeys_of_lacksName _ hlacks

/-- `int(value)`. -/
def int : Codec name Int := scalar intOf .int (fun _ => rfl) fun _ => rfl

/-- `bool(value)`. -/
def bool : Codec name Bool :=
  scalar (fun v => .ok (truthy v)) .bool (fun _ => rfl) fun _ => rfl

/-- `float(value)`. -/
def float : Codec name String := scalar pyFloat .float (fun _ => rfl) fun _ => rfl

/-- `str(value)`. -/
def text : Codec name PyStr :=
  scalar (fun v => .ok (pyStr v)) .str (fun _ => rfl) fun _ => rfl

end Scalars

/-!
### Containers

Lists, dictionaries and values that may be missing.
-/

section Containers

/-- What is iterated over lacks the name where the value does. -/
theorem lacksName_of_mem_iterate {v x : Json} {xs : List Json} (hitems : iterate v = .ok xs)
    (hlacks : lacksName name v = true) (hmem : x ∈ xs) : lacksName name x = true := by
  cases v with
  | list ys =>
      cases hitems
      rw [lacksName, Bool.and_eq_true] at hlacks
      exact (lacksNameList_iff _).mp hlacks.2 x hmem
  | str s =>
      cases hitems
      rcases List.mem_map.mp hmem with ⟨_, _, rfl⟩
      rfl
  | obj fields =>
      cases hitems
      rcases List.mem_map.mp hmem with ⟨_, _, rfl⟩
      rfl
  | null | bool _ | int _ | float _ => cases hitems

/-- `[C.from_dict(item) for item in value]`. -/
def listOf : Codec name (List α) where
  decode := fun v => do (← iterate v).mapM codec.decode
  encode := fun xs => .list (xs.map codec.encode)
  asdict := fun xs => .list (xs.map codec.asdict)
  Known := fun xs => ∀ x ∈ xs, codec.Known x
  decode_encode := fun xs hknown => by
    change (xs.map codec.encode).mapM codec.decode = .ok xs
    induction xs with
    | nil => rfl
    | cons x xs ih =>
        rw [List.map_cons, List.mapM_cons, codec.decode_encode x (hknown x List.mem_cons_self),
          ih fun y hy => hknown y (List.mem_cons_of_mem x hy)]
        rfl
  dropKeys_asdict := fun xs => by
    simp only [Json.dropKeys, Json.dropKeysList_eq_map, List.map_map, Function.comp_def,
      codec.dropKeys_asdict]
  lacks_of_decode := fun v xs hread hlacks => by
    rcases (Except.bind_eq_ok _ _ _).mp hread with ⟨items, hitems, hmapM⟩
    refine (Json.lacksKeysList_iff _ _).mpr fun y hy => ?_
    rcases List.mem_map.mp hy with ⟨x, hx, rfl⟩
    rcases Except.exists_of_mem_mapM _ _ _ hmapM x hx with ⟨item, hitem, hdecode⟩
    exact codec.lacks_of_decode item x hdecode (lacksName_of_mem_iterate hitems hlacks hitem)

/-- `None` where the value is null. -/
def nullable (hnull : ∀ a, codec.encode a ≠ .null) : Codec name (Option α) where
  decode := fun v => if v = .null then .ok none else (codec.decode v).map some
  encode := fun a => (a.map codec.encode).getD .null
  asdict := fun a => (a.map codec.asdict).getD .null
  Known := fun a => ∀ x ∈ a, codec.Known x
  decode_encode := fun a hknown => by
    cases a with
    | none => rfl
    | some x =>
        change (if codec.encode x = .null then .ok none else
          (codec.decode (codec.encode x)).map some) = _
        rw [if_neg (hnull x), codec.decode_encode x (hknown x rfl)]
        rfl
  dropKeys_asdict := fun a => by
    cases a with
    | none => rfl
    | some x => exact codec.dropKeys_asdict x
  lacks_of_decode := fun v a hread hlacks => by
    split at hread
    · cases hread
      rfl
    · rcases (Except.map_eq_ok _ _ _).mp hread with ⟨x, hx, rfl⟩
      exact codec.lacks_of_decode v x hx hlacks

/-- `None` where the value counts as nothing. -/
def nonFalsy (htruthy : ∀ a, truthy (codec.encode a) = true) : Codec name (Option α) where
  decode := fun v => if truthy v then (codec.decode v).map some else .ok none
  encode := fun a => (a.map codec.encode).getD .null
  asdict := fun a => (a.map codec.asdict).getD .null
  Known := fun a => ∀ x ∈ a, codec.Known x
  decode_encode := fun a hknown => by
    cases a with
    | none => rfl
    | some x =>
        change (if truthy (codec.encode x) = true then
          (codec.decode (codec.encode x)).map some else .ok none) = _
        rw [if_pos (htruthy x), codec.decode_encode x (hknown x rfl)]
        rfl
  dropKeys_asdict := fun a => by
    cases a with
    | none => rfl
    | some x => exact codec.dropKeys_asdict x
  lacks_of_decode := fun v a hread hlacks => by
    split at hread
    · rcases (Except.map_eq_ok _ _ _).mp hread with ⟨x, hx, rfl⟩
      exact codec.lacks_of_decode v x hx hlacks
    · cases hread
      rfl

/-- `value.items()`. -/
def pyItems : Json → Except PyException Fields
  | .obj fields => .ok fields
  | value => .error (noAttribute value "items")

/-- One of `{k: C.from_dict(v) for k, v in value.items()}`. -/
def decodeEntry (entry : PyStr × Json) : Except PyException (PyStr × α) :=
  (codec.decode entry.2).map fun a => (entry.1, a)

/-- The entries of a dictionary, each value written. -/
def writeEntries (write : α → Json) (d : Dict PyStr α) : Fields :=
  d.entries.map fun entry => (entry.1, write entry.2)

theorem mapM_decodeEntry {entries : List (PyStr × α)}
    (hknown : ∀ entry ∈ entries, codec.Known entry.2) :
    (entries.map fun entry => (entry.1, codec.encode entry.2)).mapM codec.decodeEntry =
      .ok entries := by
  induction entries with
  | nil => rfl
  | cons entry rest ih =>
      rw [List.map_cons, List.mapM_cons, decodeEntry,
        codec.decode_encode entry.2 (hknown entry List.mem_cons_self),
        ih fun e he => hknown e (List.mem_cons_of_mem entry he)]
      rfl

/-- `{k: C.from_dict(v) for k, v in value.items()}`. -/
def mapOf : Codec name (Dict PyStr α) where
  decode := fun v => do
    let entries ← (← pyItems v).mapM codec.decodeEntry
    pure (Dict.empty.setAll entries)
  encode := fun d => .obj (writeEntries codec.encode d)
  asdict := fun d => .obj (writeEntries codec.asdict d)
  Known := fun d => ∀ entry ∈ d.entries, codec.Known entry.2
  decode_encode := fun d hknown => by
    change (do
      let entries ← (writeEntries codec.encode d).mapM codec.decodeEntry
      pure (Dict.empty.setAll entries)) = _
    rw [writeEntries, codec.mapM_decodeEntry hknown]
    exact congrArg Except.ok d.setAll_entries
  dropKeys_asdict := fun d => by
    refine congrArg Json.obj ?_
    unfold writeEntries
    induction d.entries with
    | nil => rfl
    | cons entry rest ih =>
        rw [List.map_cons, List.map_cons, Json.dropKeysFields, Json.dropKeysFields, ih,
          codec.dropKeys_asdict]
  lacks_of_decode := fun v d hread hlacks => by
    rcases (Except.bind_eq_ok _ _ _).mp hread with ⟨fields, hfields, hread⟩
    rcases (Except.bind_eq_ok _ _ _).mp hread with ⟨entries, hentries, hpure⟩
    cases hpure
    cases v with
    | obj members =>
        cases hfields
        refine (Json.lacksKeysFields_iff _ _).mpr fun e he => ?_
        rcases List.mem_map.mp he with ⟨entry, hentry, rfl⟩
        rcases Dict.mem_entries_setAll entries Dict.empty entry hentry with hnone | hmem
        · cases hnone
        · rcases Except.exists_of_mem_mapM _ _ _ hentries entry hmem with ⟨member, hmember, hmap⟩
          rcases (Except.map_eq_ok _ _ _).mp hmap with ⟨a, ha, rfl⟩
          have hlack := (lacksNameFields_iff _).mp hlacks member hmember
          exact ⟨hlack.1, codec.lacks_of_decode _ _ ha hlack.2⟩
    | null | bool _ | int _ | float _ | str _ | list _ => cases hfields

theorem mapOf_decode_orElse (v : Json) {fields : Fields} (hv : v = .obj fields) :
    codec.mapOf.decode (orElse v (.obj [])) = codec.mapOf.decode v := by
  subst hv
  cases fields with
  | nil => rfl
  | cons e rest => rfl

/-- `{k: C.from_dict(v) for k, v in (value or {}).items()}`. -/
def mapOrEmpty : Codec name (Dict PyStr α) where
  decode := fun v => codec.mapOf.decode (orElse v (.obj []))
  encode := codec.mapOf.encode
  asdict := codec.mapOf.asdict
  Known := codec.mapOf.Known
  decode_encode := fun d hknown =>
    (codec.mapOf_decode_orElse (codec.mapOf.encode d) rfl).trans
      (codec.mapOf.decode_encode d hknown)
  dropKeys_asdict := codec.mapOf.dropKeys_asdict
  lacks_of_decode := fun v d hread hlacks => by
    refine codec.mapOf.lacks_of_decode _ d hread ?_
    unfold orElse
    split
    · exact hlacks
    · rfl

end Containers

/-!
### Codecs that keep nothing unknown

Such a codec writes a value that lacks the name under which unknown members are kept.
-/

section AllKnown

/-- No value of the type keeps a member it has no field for. -/
def AllKnown : Prop := ∀ a, codec.Known a

variable {codec}

@[simp]
theorem allKnown_raw : (raw : Codec name Json).AllKnown := fun _ => trivial

@[simp]
theorem allKnown_int : (int : Codec name Int).AllKnown := fun _ => trivial

@[simp]
theorem allKnown_bool : (bool : Codec name Bool).AllKnown := fun _ => trivial

@[simp]
theorem allKnown_text : (text : Codec name PyStr).AllKnown := fun _ => trivial

@[simp]
theorem allKnown_float : (float : Codec name String).AllKnown := fun _ => trivial

@[simp]
theorem allKnown_listOf (h : codec.AllKnown) : codec.listOf.AllKnown := fun _ x _ => h x

@[simp]
theorem allKnown_nullable (h : codec.AllKnown) {hnull : ∀ a, codec.encode a ≠ .null} :
    (codec.nullable hnull).AllKnown := fun _ x _ => h x

@[simp]
theorem allKnown_nonFalsy (h : codec.AllKnown) {htruthy : ∀ a, truthy (codec.encode a) = true} :
    (codec.nonFalsy htruthy).AllKnown := fun _ x _ => h x

@[simp]
theorem allKnown_mapOf (h : codec.AllKnown) : codec.mapOf.AllKnown := fun _ entry _ => h entry.2

@[simp]
theorem allKnown_mapOrEmpty (h : codec.AllKnown) : codec.mapOrEmpty.AllKnown :=
  fun _ entry _ => h entry.2

end AllKnown

end Codec

/-!
### Records

A record is read member by member, in the order of its schema, and written back in the
same order; what it has no field for is kept under one name or lost.
-/

section Records

/-- `value[key]`. -/
def pyItem (value : Json) (key : String) : Except PyException Json :=
  match value with
  | .obj fields =>
      match Dict.lookupL (.text key) fields with
      | some v => .ok v
      | none => .error ⟨"KeyError", pyRepr key⟩
  | .str _ => .error ⟨"TypeError", "string indices must be integers, not 'str'"⟩
  | .list _ => .error ⟨"TypeError", "list indices must be integers or slices, not str"⟩
  | value => .error ⟨"TypeError", "'" ++ typeName value ++ "' object is not subscriptable"⟩

/-- `value[key]`, or `value.get(key, default)` where there is a default. -/
def readMember (value : Json) (key : String) : Option Json → Except PyException Json
  | none => pyItem value key
  | some default => pyGetD value key default

/-- The members of a record, in order, each with its codec and the default of one that
    may be missing. -/
inductive Schema (name : String) : Type → Type 1 where
  | nil : Schema name Unit
  | field {α β : Type} (key : String) (codec : Codec name α) (default : Option Json)
      (rest : Schema name β) : Schema name (α × β)

namespace Schema

variable {name : String}

/-- Reads the fields in order, and the first that fails is reported. -/
def read (source : Json) : {β : Type} → Schema name β → Except PyException β
  | _, nil => .ok ()
  | _, field key codec default rest => do
      let a ← codec.decode (← readMember source key default)
      let b ← rest.read source
      pure (a, b)

/-- The members of `to_dict`, in the order of the fields. -/
def encodeMembers : {β : Type} → Schema name β → β → Fields
  | _, nil, _ => []
  | _, field key codec _ rest, (a, b) => member key (codec.encode a) :: rest.encodeMembers b

/-- The members of `asdict`, in the order of the fields. -/
def asdictMembers : {β : Type} → Schema name β → β → Fields
  | _, nil, _ => []
  | _, field key codec _ rest, (a, b) => member key (codec.asdict a) :: rest.asdictMembers b

/-- No field of the record has an unknown member. -/
def Known : {β : Type} → Schema name β → β → Prop
  | _, nil, _ => True
  | _, field _ codec _ rest, (a, b) => codec.Known a ∧ rest.Known b

/-- The names of the fields. -/
def keys : {β : Type} → Schema name β → List String
  | _, nil => []
  | _, field key _ _ rest => key :: rest.keys

/-- Every member has a name of its own, none of them the dropped one, and no default
    holds a member of that name. -/
def WellFormed : {β : Type} → Schema name β → Bool
  | _, nil => true
  | _, field key _ default rest =>
      key ∉ rest.keys && key ≠ name &&
        ((default.map (lacksName name)).getD true) && rest.WellFormed

/-- No value of the fields' types can have an unknown member. -/
@[simp]
def AllKnown : {β : Type} → Schema name β → Prop
  | _, nil => True
  | _, field _ codec _ rest => codec.AllKnown ∧ rest.AllKnown

theorem known_of_allKnown : {β : Type} → (schema : Schema name β) → schema.AllKnown →
    ∀ b, schema.Known b
  | _, nil, _, _ => trivial
  | _, field _ _ _ rest, h, (a, b) => ⟨h.1 a, rest.known_of_allKnown h.2 b⟩

variable {β : Type} (schema : Schema name β)

theorem keys_encodeMembers : {β : Type} → (schema : Schema name β) → (b : β) →
    (schema.encodeMembers b).map Prod.fst = schema.keys.map PyStr.text
  | _, nil, _ => rfl
  | _, field key _ _ rest, (_, b) => congrArg (PyStr.text key :: ·) (rest.keys_encodeMembers b)

theorem nodup_keys : {β : Type} → (schema : Schema name β) → schema.WellFormed = true →
    schema.keys.Nodup
  | _, nil, _ => List.nodup_nil
  | _, field key _ _ rest, h => by
      simp only [WellFormed, Bool.and_eq_true, decide_eq_true_eq] at h
      exact List.nodup_cons.mpr ⟨h.1.1.1, rest.nodup_keys h.2⟩

theorem nodup_encodeMembers (hwell : schema.WellFormed = true) (b : β) :
    ((schema.encodeMembers b).map Prod.fst).Nodup := by
  rw [keys_encodeMembers]
  exact (schema.nodup_keys hwell).map fun _ _ h => PyStr.text.inj h

/-- A member is found where it is written. -/
theorem readMember_of_lookupL {fields : Fields} {key : String} {v : Json}
    (h : Dict.lookupL (.text key) fields = some v) (default : Option Json) :
    readMember (.obj fields) key default = .ok v := by
  cases default with
  | none => simp [readMember, pyItem, h]
  | some d => simp [readMember, pyGetD, h]

/-- Members that are found as they are written are read as what was written. -/
theorem read_of_lookupL {fields : Fields} : {β : Type} → (schema : Schema name β) → (b : β) →
    schema.Known b →
    (∀ e ∈ schema.encodeMembers b, Dict.lookupL e.1 fields = some e.2) →
    schema.read (.obj fields) = .ok b
  | _, nil, _, _, _ => rfl
  | _, field key codec default rest, (a, b), hknown, hfound => by
      have hhead := hfound (member key (codec.encode a)) List.mem_cons_self
      have hrest := rest.read_of_lookupL b hknown.2 fun e he =>
        hfound e (List.mem_cons_of_mem _ he)
      simp only [read, readMember_of_lookupL hhead, hrest]
      change (do
        let a ← codec.decode (codec.encode a)
        pure (a, b)) = _
      rw [codec.decode_encode a hknown.1]
      rfl

theorem dropKeysFields_asdictMembers : {β : Type} → (schema : Schema name β) → (b : β) →
    Json.dropKeysFields (isNamed name) (schema.asdictMembers b) =
      Json.dropKeysFields (isNamed name) (schema.encodeMembers b)
  | _, nil, _ => rfl
  | _, field key codec _ rest, (a, b) => by
      simp only [asdictMembers, encodeMembers, member, Json.dropKeysFields, codec.dropKeys_asdict,
        rest.dropKeysFields_asdictMembers b]

/-- A member that is read lacks the name where the record and the default do. -/
theorem lacksName_of_readMember {source v : Json} {key : String} {default : Option Json}
    (hread : readMember source key default = .ok v)
    (hlacks : lacksName name source = true)
    (hdefault : (default.map (lacksName name)).getD true = true) : lacksName name v = true := by
  -- What is found under a key is inside the value it was found in.
  have hfound : ∀ fields : Fields, source = .obj fields →
      Dict.lookupL (.text key) fields = some v → lacksName name v = true := by
    rintro fields rfl hlookup
    exact ((lacksNameFields_iff _).mp hlacks _ (Dict.lookupL_mem hlookup)).2
  -- Without a default the key has to be there; with one it may be the default that is read.
  cases default with
  | none =>
      cases source with
      | obj fields =>
          simp only [readMember, pyItem] at hread
          split at hread
          · rename_i w hlookup
            cases hread
            exact hfound fields rfl hlookup
          · cases hread
      | null | bool _ | int _ | float _ | str _ | list _ => cases hread
  | some d =>
      cases source with
      | obj fields =>
          simp only [readMember, pyGetD, Except.ok.injEq] at hread
          cases hlookup : Dict.lookupL (PyStr.text key) fields with
          | none =>
              rw [hlookup, Option.getD_none] at hread
              exact hread ▸ hdefault
          | some w =>
              rw [hlookup, Option.getD_some] at hread
              exact hfound fields rfl (hread ▸ hlookup)
      | null | bool _ | int _ | float _ | str _ | list _ => cases hread

/-- A record that was read of a value without the name is written without it. -/
theorem lacks_encodeMembers {source : Json} (hlacks : lacksName name source = true) :
    {β : Type} → (schema : Schema name β) → (b : β) → schema.WellFormed = true →
    schema.read source = .ok b →
    Json.lacksKeysFields (isNamed name) (schema.encodeMembers b) = true
  | _, nil, _, _, _ => rfl
  | _, field key codec default rest, b, hwell, hread => by
      simp only [WellFormed, Bool.and_eq_true, decide_eq_true_eq] at hwell
      rcases (Except.bind_eq_ok _ _ _).mp hread with ⟨v, hv, hread⟩
      rcases (Except.bind_eq_ok _ _ _).mp hread with ⟨a, ha, hread⟩
      rcases (Except.bind_eq_ok _ _ _).mp hread with ⟨b, hb, hpure⟩
      cases hpure
      have hhead := codec.lacks_of_decode v a ha (lacksName_of_readMember hv hlacks hwell.1.2)
      have hrest := lacks_encodeMembers hlacks rest b hwell.2 hb
      have hname : isNamed name (PyStr.text key) = false := by
        simpa [isNamed] using hwell.1.1.2
      simp only [encodeMembers, member, Json.lacksKeysFields, hname, hhead, hrest, Bool.not_false,
        Bool.and_self]

end Schema

/-- A record type: what is checked before the members are read, the members, and how
    a record is taken apart and built. `unknown` is the field for members that have
    none, where the record keeps them. -/
structure RecordType (name : String) (ρ : Type) where
  Parts : Type
  check : Json → Except PyException Unit
  schema : Schema name Parts
  parts : ρ → Parts
  build : Parts → Fields → ρ
  unknown : Option (ρ → Fields)
  check_encode : ∀ b, check (.obj (schema.encodeMembers b)) = .ok ()
  wellFormed : schema.WellFormed = true
  build_parts : ∀ r, (∀ f ∈ unknown, f r = []) → build (parts r) [] = r
  parts_build : ∀ b fields, parts (build b fields) = b

namespace RecordType

variable {name : String} {ρ : Type} (type : RecordType name ρ)

/-- The members that have no field. -/
def unknownOf : Json → Fields
  | .obj fields => fields.filter fun field => field.1 ∉ type.schema.keys.map PyStr.text
  | _ => []

theorem unknownOf_encode (b : type.Parts) :
    type.unknownOf (.obj (type.schema.encodeMembers b)) = [] := by
  refine List.filter_eq_nil_iff.mpr fun e he => ?_
  have hkey := List.mem_map_of_mem (f := Prod.fst) he
  rw [Schema.keys_encodeMembers] at hkey
  simpa using hkey

/-- What a record keeps under the name. -/
def kept (r : ρ) : Fields := (type.unknown.map fun f => [member name (.obj (f r))]).getD []

theorem dropKeysFields_append_kept (fields : Fields) (r : ρ) :
    Json.dropKeysFields (isNamed name) (fields ++ type.kept r) =
      Json.dropKeysFields (isNamed name) fields := by
  induction fields with
  | nil =>
      unfold kept
      cases type.unknown with
      | none => rfl
      | some f => simp [member, Json.dropKeysFields, isNamed]
  | cons e rest ih =>
      rw [List.cons_append, Json.dropKeysFields, Json.dropKeysFields, ih]

/-- The codec of a record type. -/
def codec : Codec name ρ where
  decode := fun source => do
    type.check source
    let b ← type.schema.read source
    pure (type.build b (type.unknownOf source))
  encode := fun r => .obj (type.schema.encodeMembers (type.parts r))
  asdict := fun r => .obj (type.schema.asdictMembers (type.parts r) ++ type.kept r)
  Known := fun r => (∀ f ∈ type.unknown, f r = []) ∧ type.schema.Known (type.parts r)
  decode_encode := fun r hknown => by
    have hread := type.schema.read_of_lookupL (type.parts r) hknown.2 fun e he =>
      Dict.lookupL_of_mem (type.schema.nodup_encodeMembers type.wellFormed (type.parts r)) he
    rw [type.check_encode, hread, type.unknownOf_encode]
    exact congrArg Except.ok (type.build_parts r hknown.1)
  dropKeys_asdict := fun r => by
    simp only [Json.dropKeys, type.dropKeysFields_append_kept,
      type.schema.dropKeysFields_asdictMembers]
  lacks_of_decode := fun v r hread hlacks => by
    rcases (Except.bind_eq_ok _ _ _).mp hread with ⟨_, -, hread⟩
    rcases (Except.bind_eq_ok _ _ _).mp hread with ⟨b, hb, hpure⟩
    cases hpure
    rw [type.parts_build]
    exact type.schema.lacks_encodeMembers hlacks b type.wellFormed hb

/-- `C.from_dict(value) if value is not None else None`. -/
def orNone : Codec name (Option ρ) := type.codec.nullable fun _ h => nomatch h

/-- `C.from_dict(value) if value else None`. A record with a field counts as something. -/
def unlessFalsy (hkeys : type.schema.keys ≠ []) : Codec name (Option ρ) :=
  type.codec.nonFalsy fun r => by
    have hmembers := type.schema.keys_encodeMembers (type.parts r)
    cases hnil : type.schema.encodeMembers (type.parts r) with
    | nil =>
        rw [hnil] at hmembers
        exact absurd (List.map_eq_nil_iff.mp hmembers.symm) hkeys
    | cons e rest => simp [codec, hnil, truthy]

variable {type}

/-- A record that keeps nothing, of members that keep nothing. -/
theorem allKnown (hunknown : type.unknown = none) (hschema : type.schema.AllKnown) :
    type.codec.AllKnown := by
  refine fun r => ⟨fun f hf => ?_, type.schema.known_of_allKnown hschema _⟩
  rw [hunknown] at hf
  cases hf

@[simp]
theorem allKnown_orNone (h : type.codec.AllKnown) : type.orNone.AllKnown :=
  Codec.allKnown_nullable h

@[simp]
theorem allKnown_unlessFalsy (h : type.codec.AllKnown) {hkeys : type.schema.keys ≠ []} :
    (type.unlessFalsy hkeys).AllKnown := Codec.allKnown_nonFalsy h

end RecordType

end Records

end Api

end STS2RL
