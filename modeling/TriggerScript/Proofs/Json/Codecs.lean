import TriggerScript.Json.Tree
import TriggerScript.Json.Tree.Decoder
import TriggerScript.Proofs.Json.Text

/-!
# Decoders and the forms they decode

A decoder belongs to a JSON form if it takes the form of every value apart again, as long as the form is
not nested deeper than allowed and all its integers fit a word, and else takes nothing. This is a
`Codec`. Codecs of the parts of a structure make up the codec of the structure; the main result is the
one for programs (`Program.codec`).

The decoder of values is limited in the number of values inside one another. It is a codec up to that
depth, since every value opens an object.
-/

namespace TriggerScript

namespace Json

mutual

/-- The integers in a value. -/
def ints : Json → List Int
  | int n => [n]
  | arr items => itemsInts items
  | obj fields => fieldsInts fields
  | _ => []

/-- The integers in the items of an array. -/
def itemsInts : List Json → List Int
  | [] => []
  | v :: rest => v.ints ++ itemsInts rest

/-- The integers in the fields of an object. -/
def fieldsInts : List (String × Json) → List Int
  | [] => []
  | (_, v) :: rest => v.ints ++ fieldsInts rest

end

/-- A value that is nested at most `n` deep and in which all integers fit a word. -/
def Within (n : Nat) (v : Json) : Prop :=
  v.depth ≤ n ∧ ∀ i ∈ v.ints, Text.fitsWord i

instance (n : Nat) (v : Json) : Decidable (Within n v) :=
  inferInstanceAs (Decidable (_ ∧ _))

variable {n : Nat} {items : List Json} {fields : List (String × Json)}

@[simp] lemma within_null : Within n .null := by simp [Within, depth, ints]

@[simp] lemma within_bool (b : Bool) : Within n (.bool b) := by simp [Within, depth, ints]

@[simp] lemma within_str (s : String) : Within n (.str s) := by simp [Within, depth, ints]

@[simp] lemma within_int (i : Int) : Within n (.int i) ↔ Text.fitsWord i := by
  simp [Within, depth, ints]

lemma itemsDepth_le_iff : itemsDepth items ≤ n ↔ ∀ v ∈ items, v.depth ≤ n := by
  induction items with
  | nil => simp [itemsDepth]
  | cons v items ih => rw [itemsDepth, Nat.max_le, ih, List.forall_mem_cons]

lemma fieldsDepth_le_iff : fieldsDepth fields ≤ n ↔ ∀ f ∈ fields, f.2.depth ≤ n := by
  induction fields with
  | nil => simp [fieldsDepth]
  | cons f fields ih => rw [fieldsDepth, Nat.max_le, ih, List.forall_mem_cons]

lemma mem_itemsInts {i : Int} : i ∈ itemsInts items ↔ ∃ v ∈ items, i ∈ v.ints := by
  induction items with
  | nil => simp [itemsInts]
  | cons v items ih => simp [itemsInts, ih]

lemma mem_fieldsInts {i : Int} : i ∈ fieldsInts fields ↔ ∃ f ∈ fields, i ∈ f.2.ints := by
  induction fields with
  | nil => simp [fieldsInts]
  | cons f fields ih => simp [fieldsInts, ih]

/-- A value inside an array may be nested one level less than the array. -/
@[simp] lemma within_arr : Within (n + 1) (.arr items) ↔ ∀ v ∈ items, Within n v := by
  simp only [Within, depth, ints, Nat.add_le_add_iff_right, itemsDepth_le_iff, mem_itemsInts]
  constructor
  · rintro ⟨hdepth, hints⟩ v hv
    exact ⟨hdepth v hv, fun i hi => hints i ⟨v, hv, hi⟩⟩
  · intro h
    refine ⟨fun v hv => (h v hv).1, ?_⟩
    rintro i ⟨v, hv, hi⟩
    exact (h v hv).2 i hi

/-- A value inside an object may be nested one level less than the object. -/
@[simp] lemma within_obj : Within (n + 1) (.obj fields) ↔ ∀ f ∈ fields, Within n f.2 := by
  simp only [Within, depth, ints, Nat.add_le_add_iff_right, fieldsDepth_le_iff, mem_fieldsInts]
  constructor
  · rintro ⟨hdepth, hints⟩ f hf
    exact ⟨hdepth f hf, fun i hi => hints i ⟨f, hf, hi⟩⟩
  · intro h
    refine ⟨fun f hf => (h f hf).1, ?_⟩
    rintro i ⟨f, hf, hi⟩
    exact (h f hf).2 i hi

@[simp] lemma not_within_zero_arr : ¬Within 0 (.arr items) := by
  simp [Within, depth]

@[simp] lemma not_within_zero_obj : ¬Within 0 (.obj fields) := by
  simp [Within, depth]

lemma allPlain_iff : allPlain items ↔ ∀ v ∈ items, v.isPlain := by
  induction items with
  | nil => simp [allPlain]
  | cons v items ih => simp [allPlain, ih]

lemma fieldsPlain_iff : fieldsPlain fields ↔ ∀ f ∈ fields, f.2.isPlain := by
  induction fields with
  | nil => simp [fieldsPlain]
  | cons f fields ih => simp [fieldsPlain, ih]

@[simp] lemma isPlain_str (s : String) : (str s).isPlain := rfl

@[simp] lemma isPlain_arr : (arr items).isPlain ↔ ∀ v ∈ items, v.isPlain := by
  rw [isPlain, allPlain_iff]

@[simp] lemma isPlain_obj : (obj fields).isPlain ↔ ∀ f ∈ fields, f.2.isPlain := by
  rw [isPlain, fieldsPlain_iff]

/-! ## Codecs -/

/-- A number of 32 bits fits a word. -/
lemma fitsWord_toNat (w : UInt32) : Text.fitsWord (w.toNat : Int) := by
  have hlt : w.toNat < UInt32.size := w.toNat_lt_size
  simp only [UInt32.size] at hlt
  simp only [Text.fitsWord, Bool.and_eq_true, decide_eq_true_eq]
  omega

/-- The decoder inverts the form `enc`: with at most `bound` levels to go it takes apart exactly the
forms that are not nested deeper than it is allowed and have no integer beyond a word. -/
structure Codec {α : Type} (bound : Nat) (enc : α → Json) (dec : Decoder α) : Prop where
  plain : ∀ x, (enc x).isPlain
  decodes : ∀ n ≤ bound, ∀ x, dec n (enc x) = if Within n (enc x) then some x else none

namespace Codec

variable {α : Type} {bound : Nat} {enc : α → Json} {dec : Decoder α}

protected lemma text (bound : Nat) : Codec bound Json.str Decoder.text where
  plain _ := rfl
  decodes n _ s := by simp [Decoder.text]

protected lemma bool (bound : Nat) : Codec bound Json.bool Decoder.bool where
  plain _ := rfl
  decodes n _ b := by simp [Decoder.bool]

protected lemma int (bound : Nat) : Codec bound Json.int Decoder.int where
  plain _ := rfl
  decodes n _ i := by simp [Decoder.int]

protected lemma word (bound : Nat) : Codec bound (fun w : UInt32 => .nat w.toNat) Decoder.word where
  plain _ := rfl
  decodes n _ w := by
    have hlt : w.toNat < UInt32.size := w.toNat_lt_size
    have hword : (0 : Int) ≤ w.toNat ∧ (w.toNat : Int) < UInt32.size := by omega
    simp only [Decoder.word, Json.nat, within_int, if_pos (fitsWord_toNat w), if_pos hword,
      Int.toNat_natCast, UInt32.ofNat_toNat]

/-- A value or null. -/
protected lemma orNull (h : Codec bound enc dec) (hne : ∀ x, enc x ≠ .null) :
    Codec bound (Json.orNull enc) dec.orNull where
  plain x := by
    cases x with
    | none => rfl
    | some x => exact h.plain x
  decodes n hn x := by
    cases x with
    | none => simp [Json.orNull, Decoder.orNull]
    | some x =>
      have hnull : dec.orNull n (enc x) = (dec n (enc x)).map some := by
        have hx := hne x
        cases hv : enc x with
        | null => exact absurd hv hx
        | _ => rfl
      rw [Json.orNull, hnull, h.decodes n hn]
      split_ifs <;> rfl

/-- Steps that each take a part of a structure. -/
lemma bind_ite {β : Type} {P : Prop} [Decidable P] {a : α} {f : α → Option β} :
    ((if P then some a else none) >>= f) = if P then f a else none := by
  split_ifs <;> rfl

/-- An array of values. -/
protected lemma list (h : Codec bound enc dec) :
    Codec bound (fun xs => .arr (xs.map enc)) dec.list where
  plain xs := by
    rw [isPlain_arr]
    intro v hv
    obtain ⟨x, -, rfl⟩ := List.mem_map.1 hv
    exact h.plain x
  decodes n hn xs := by
    cases n with
    | zero => simp [Decoder.list]
    | succ n =>
      have hitems : (xs.map enc).mapM (dec n) =
          if ∀ v ∈ xs.map enc, Within n v then some xs else none := by
        induction xs with
        | nil => simp
        | cons x xs ih =>
          rw [List.map_cons, List.mapM_cons, h.decodes n (by omega), ih, bind_ite, bind_ite]
          simp only [List.forall_mem_cons, ite_and]
          rfl
      rw [Decoder.list, hitems]
      simp only [within_arr]

/-- An object with arbitrary keys. -/
protected lemma entries (h : Codec bound enc dec) :
    Codec bound (fun xs : List (String × α) => .obj (xs.map fun x => (x.1, enc x.2)))
      dec.entries where
  plain xs := by
    rw [isPlain_obj, List.forall_mem_map]
    exact fun x _ => h.plain x.2
  decodes n hn xs := by
    cases n with
    | zero => simp [Decoder.entries]
    | succ n =>
      have hfields : Decoder.entries dec (n + 1) (.obj (xs.map fun x => (x.1, enc x.2))) =
          if ∀ f ∈ xs.map fun x : String × α => (x.1, enc x.2), Within n f.2 then some xs
          else none := by
        rw [Decoder.entries]
        induction xs with
        | nil => simp
        | cons x xs ih =>
          have hx : ((dec n (enc x.2)).map fun a => (x.1, a)) =
              if Within n (enc x.2) then some x else none := by
            rw [h.decodes n (by omega)]
            split_ifs <;> rfl
          rw [List.map_cons, List.mapM_cons, ih]
          simp only [hx, bind_ite, List.forall_mem_cons, ite_and]
          rfl
      rw [hfields]
      simp only [within_obj]

/-- Each name of a structure leads to its part. -/
lemma map_lookup_zip {names : List String} (hnames : names.Nodup) {parts : List Json}
    (hlength : parts.length = names.length) :
    (names.map fun name => (names.zip parts).lookup name) = parts.map some := by
  induction names generalizing parts with
  | nil =>
    obtain rfl := List.length_eq_zero_iff.1 hlength
    rfl
  | cons name names ih =>
    cases parts with
    | nil => cases hlength
    | cons part parts =>
      obtain ⟨hname, hnames⟩ := List.nodup_cons.1 hnames
      -- the first name is found at once, and the others are not mistaken for it
      have hhead : ((name, part) :: names.zip parts).lookup name = some part := by simp
      have htail : ∀ other ∈ names, ((name, part) :: names.zip parts).lookup other =
          (names.zip parts).lookup other := by
        intro other hother
        have hne : (other == name) = false := by
          rw [beq_eq_false_iff_ne]
          rintro rfl
          exact hname hother
        rw [List.lookup_cons, hne]
      rw [List.zip_cons_cons, List.map_cons, hhead, List.map_congr_left htail, List.map_cons,
        ih hnames (Nat.succ.inj hlength)]

/-- The parts of a structure are found by their names. -/
lemma parts?_obj {names : List String} (hnames : names.Nodup) {parts : List Json}
    (hlength : parts.length = names.length) :
    Decoder.parts? names (.obj (names.zip parts)) = some (parts.map some) := by
  have hcount : ∀ name, (names.zip parts).countP (·.1 = name) ≤ 1 := by
    intro name
    have hkeys : (names.zip parts).map Prod.fst = names := List.map_fst_zip hlength.ge
    calc (names.zip parts).countP (·.1 = name)
        = ((names.zip parts).map Prod.fst).countP (· = name) := by
          rw [List.countP_map]
          rfl
      _ = names.count name := by
          rw [hkeys, List.count]
          congr 1
      _ ≤ 1 := List.nodup_iff_count.1 hnames name
  have hall : (names.all fun name => decide ((names.zip parts).countP (·.1 = name) ≤ 1)) = true :=
    List.all_eq_true.2 fun name _ => decide_eq_true (hcount name)
  rw [Decoder.parts?, if_pos hall, map_lookup_zip hnames hlength]

/-- The value of which these are the forms of the parts, if all of them are within bounds. -/
def taken (n : Nat) (x : α) : List Json → Option α
  | [] => some x
  | v :: rest => if Within n v then taken n x rest else none

lemma taken_eq {n : Nat} {x : α} {parts : List Json} :
    taken n x parts = if ∀ v ∈ parts, Within n v then some x else none := by
  induction parts with
  | nil => simp [taken]
  | cons v parts ih => simp only [taken, ih, List.forall_mem_cons, ite_and]

/-- A structure put together from the forms of its parts. -/
lemma decodes_record {names : List String} {build : Nat → List (Option Json) → Option α}
    (x : α) (parts : List Json) {form : Json} {n : Nat} (hdec : dec = Decoder.record names build)
    (hform : form = .obj (names.zip parts)) (hnames : names.Nodup)
    (hlength : parts.length = names.length)
    (hbuild : ∀ m < n, build m (parts.map some) = taken m x parts) :
    dec n form = if Within n form then some x else none := by
  rw [hdec, hform]
  cases n with
  | zero => simp [Decoder.record]
  | succ n =>
    -- the object is one level itself, so its parts have one level less
    have hwithin : (∀ v ∈ parts, Within n v) ↔ Within (n + 1) (.obj (names.zip parts)) := by
      have hparts : (names.zip parts).map Prod.snd = parts := List.map_snd_zip hlength.le
      rw [within_obj]
      conv_lhs => rw [← hparts, List.forall_mem_map]
    rw [Decoder.record, parts?_obj hnames hlength, Option.bind_some, hbuild n (Nat.lt_succ_self n),
      taken_eq]
    simp only [hwithin]

/-- A structure with the parts `parts x`. -/
protected lemma record {names : List String} {build : Nat → List (Option Json) → Option α}
    (parts : α → List Json) (hdec : dec = Decoder.record names build)
    (henc : ∀ x, enc x = .obj (names.zip (parts x))) (hnames : names.Nodup)
    (hlength : ∀ x, (parts x).length = names.length) (hplain : ∀ x, ∀ v ∈ parts x, v.isPlain)
    (hbuild : ∀ n ≤ bound, ∀ x, build n ((parts x).map some) = taken n x (parts x)) :
    Codec bound enc dec where
  plain x := by
    rw [henc, isPlain_obj]
    intro f hf
    exact hplain x f.2 (List.of_mem_zip hf).2
  decodes n hn x :=
    decodes_record x (parts x) hdec (henc x) hnames (hlength x) fun m hm => hbuild m (by omega) x

/-- A case with its content. -/
lemma decodes_case {build : Nat → String → Option Json → Option α} {name : String} {content : Json}
    {x : α} {n : Nat} (hbuild : ∀ m < n, build m name (some content) =
      if Within m content then some x else none) :
    Decoder.cases build n (.case name content) =
      if Within n (.case name content) then some x else none := by
  cases n with
  | zero => simp [Decoder.cases, Json.case]
  | succ n => simp [Decoder.cases, Json.case, hbuild n (Nat.lt_succ_self n)]

/-- A case whose content has a codec. -/
lemma decodes_case_map {β : Type} {build : Nat → String → Option Json → Option β} {name : String}
    (h : Codec bound enc dec) (f : α → β) {x : α}
    (hbuild : ∀ m, build m name (some (enc x)) = (dec m (enc x)).map f) {n : Nat} (hn : n ≤ bound) :
    Decoder.cases build n (.case name (enc x)) =
      if Within n (.case name (enc x)) then some (f x) else none := by
  refine decodes_case fun m hm => ?_
  rw [hbuild, h.decodes m (by omega)]
  split_ifs <;> rfl

/-- A part that has to be there. -/
lemma required (h : Codec bound enc dec) {n : Nat} (hn : n ≤ bound) (x : α) :
    dec.required n (some (enc x)) = if Within n (enc x) then some x else none :=
  h.decodes n hn x

/-- A part that is an array. -/
lemma requiredList (h : Codec bound enc dec) {n : Nat} (hn : n ≤ bound) (xs : List α) :
    dec.list.required n (some (.arr (xs.map enc))) =
      if Within n (.arr (xs.map enc)) then some xs else none :=
  h.list.decodes n hn xs

/-- A part that may be missing. -/
lemma optional (h : Codec bound enc dec) (hne : ∀ x, enc x ≠ .null) {n : Nat} (hn : n ≤ bound)
    (x : Option α) : dec.optional n (some (Json.orNull enc x)) =
      if Within n (Json.orNull enc x) then some x else none :=
  (h.orNull hne).decodes n hn x

lemma isPlain_list (h : Codec bound enc dec) (xs : List α) : (arr (xs.map enc)).isPlain :=
  h.list.plain xs

lemma isPlain_orNull (h : Codec bound enc dec) (hne : ∀ x, enc x ≠ .null) (x : Option α) :
    (Json.orNull enc x).isPlain :=
  (h.orNull hne).plain x

end Codec

lemma textOrNull_eq (s : Option String) : textOrNull s = Json.orNull str s := by
  cases s <;> rfl

@[simp] lemma isPlain_case {name : String} {content : Json} :
    (Json.case name content).isPlain ↔ content.isPlain := by
  simp [Json.case]

end Json

open Json (Codec Decoder str arr obj)

variable {bound n : Nat}

/-! ## The parts of programs -/

lemma ElementId.codec (bound : Nat) : Codec bound ElementId.toJson ElementId.decoder where
  plain _ := rfl
  decodes n hn id := by
    have hword := (Codec.word bound).decodes n hn id.val
    rw [ElementId.decoder, ElementId.toJson, hword]
    split_ifs <;> rfl

lemma Allocation.codec (bound : Nat) : Codec bound Allocation.toJson Allocation.decoder := by
  refine Codec.record (fun a => [str a.library, a.id.toJson]) rfl (fun _ => rfl) (by decide)
    (fun _ => rfl) ?_ ?_
  · simp [(ElementId.codec bound).plain]
  · intro n hn a
    simp only [List.map_cons, List.map_nil, (Codec.text bound).required hn,
      (ElementId.codec bound).required hn, Codec.bind_ite]
    rfl

@[simp] lemma Allocation.isPlain_slotJson (a : Option Allocation) :
    (Allocation.slotJson a).isPlain :=
  (Allocation.codec 0).isPlain_orNull nofun a

/-- The slot of an allocation as a part of a structure. -/
lemma Allocation.optional (n : Nat) (a : Option Allocation) :
    Allocation.decoder.optional n (some (Allocation.slotJson a)) =
      if Json.Within n (Allocation.slotJson a) then some a else none :=
  (Allocation.codec n).optional nofun le_rfl a

lemma Attribute.codec (bound : Nat) : Codec bound Attribute.toJson Attribute.decoder := by
  refine Codec.record (fun a => [str a.key, Json.orNull str a.value]) rfl
    (fun a => by rw [Attribute.toJson, Json.textOrNull_eq]; rfl) (by decide) (fun _ => rfl) ?_ ?_
  · simp [(Codec.text bound).isPlain_orNull nofun]
  · intro n hn a
    simp only [List.map_cons, List.map_nil, (Codec.text bound).required hn,
      (Codec.text bound).optional nofun hn, Codec.bind_ite]
    rfl

@[simp] lemma Attribute.isPlain_listJson (attributes : List Attribute) :
    (Attribute.listJson attributes).isPlain :=
  (Attribute.codec 0).isPlain_list attributes

/-- Attributes as a part of a structure. -/
lemma Attribute.requiredList (n : Nat) (attributes : List Attribute) :
    Attribute.decoder.list.required n (some (Attribute.listJson attributes)) =
      if Json.Within n (Attribute.listJson attributes) then some attributes else none :=
  (Attribute.codec n).requiredList le_rfl attributes

lemma Dimension.codec (bound : Nat) : Codec bound Dimension.toJson Dimension.decoder where
  plain d := by cases d <;> rfl
  decodes n hn d := by
    rcases d with i | name
    · exact Codec.decodes_case_map (Codec.int bound) Dimension.size (fun _ => rfl) hn
    · exact Codec.decodes_case_map (Codec.text bound) Dimension.variable (fun _ => rfl) hn

lemma TypeRef.codec (bound : Nat) : Codec bound TypeRef.toJson TypeRef.decoder := by
  refine Codec.record (fun t => [str t.name, arr (t.dims.map Dimension.toJson)]) rfl (fun _ => rfl)
    (by decide) (fun _ => rfl) ?_ ?_
  · simp [(Dimension.codec bound).plain]
  · intro n hn t
    simp only [List.map_cons, List.map_nil, (Codec.text bound).required hn,
      (Dimension.codec bound).requiredList hn, Codec.bind_ite]
    rfl

lemma CallableKind.codec (bound : Nat) :
    Codec bound CallableKind.toJson CallableKind.decoder where
  plain k := by cases k <;> rfl
  decodes n _ k := by
    cases k <;> rw [CallableKind.toJson, if_pos (Json.within_str _)] <;> cases n <;> rfl

/-! ## Values -/

lemma Value.listJson_eq (values : List Value) : Value.listJson values = values.map Value.toJson := by
  induction values with
  | nil => rw [Value.listJson, List.map_nil]
  | cons v values ih => rw [Value.listJson, ih, List.map_cons]

lemma Call.listJson_eq (calls : List Call) : Call.listJson calls = calls.map Call.toJson := by
  induction calls with
  | nil => rw [Call.listJson, List.map_nil]
  | cons c calls ih => rw [Call.listJson, ih, List.map_cons]

lemma VariableDef.listJson_eq (defs : List VariableDef) :
    VariableDef.listJson defs = defs.map VariableDef.toJson := by
  induction defs with
  | nil => rw [VariableDef.listJson, List.map_nil]
  | cons d defs ih => rw [VariableDef.listJson, ih, List.map_cons]

mutual

lemma ValueKind.isPlain_toJson : ∀ kind : ValueKind, kind.toJson.isPlain
  | .literal (.text _) => by simp [ValueKind.toJson, Literal.toJson]
  | .literal (.string _) => by simp [ValueKind.toJson, Literal.toJson]
  | .literal (.int _) => rfl
  | .literal (.bool _) => rfl
  | .presetMember _ _ => by simp [ValueKind.toJson]
  | .variable _ => by simp [ValueKind.toJson]
  | .arrayElement _ indices => by
    have hindices := Value.isPlain_listJson indices
    simpa [ValueKind.toJson] using hindices
  | .call c => by
    have hcall := c.isPlain_toJson
    simpa [ValueKind.toJson] using hcall
  | .block b => by
    have hblock := b.isPlain_toJson
    simpa [ValueKind.toJson] using hblock

lemma Value.isPlain_toJson : ∀ v : Value, v.toJson.isPlain
  | ⟨kind, _⟩ => by
    have hkind := kind.isPlain_toJson
    simpa [Value.toJson] using hkind

lemma Call.isPlain_toJson : ∀ c : Call, c.toJson.isPlain
  | ⟨_, args, _⟩ => by
    have hargs := Value.isPlain_listJson args
    simpa [Call.toJson] using hargs

lemma Block.isPlain_toJson : ∀ b : Block, b.toJson.isPlain
  | ⟨locals, statements⟩ => by
    have hlocals := VariableDef.isPlain_listJson locals
    have hstatements := Call.isPlain_listJson statements
    simpa [Block.toJson] using ⟨hlocals, hstatements⟩

lemma VariableDef.isPlain_toJson : ∀ d : VariableDef, d.toJson.isPlain
  | ⟨_, ty, _, value, _⟩ => by
    have hty := (TypeRef.codec 0).plain ty
    have hvalue := value.isPlain_toJson
    simpa [VariableDef.toJson] using ⟨hty, hvalue⟩

lemma Value.isPlain_listJson : ∀ values, ∀ j ∈ Value.listJson values, j.isPlain
  | [] => by simp [Value.listJson]
  | v :: values => by
    rw [Value.listJson, List.forall_mem_cons]
    exact ⟨v.isPlain_toJson, Value.isPlain_listJson values⟩

lemma Call.isPlain_listJson : ∀ calls, ∀ j ∈ Call.listJson calls, j.isPlain
  | [] => by simp [Call.listJson]
  | c :: calls => by
    rw [Call.listJson, List.forall_mem_cons]
    exact ⟨c.isPlain_toJson, Call.isPlain_listJson calls⟩

lemma VariableDef.isPlain_listJson : ∀ defs, ∀ j ∈ VariableDef.listJson defs, j.isPlain
  | [] => by simp [VariableDef.listJson]
  | d :: defs => by
    rw [VariableDef.listJson, List.forall_mem_cons]
    exact ⟨d.isPlain_toJson, VariableDef.isPlain_listJson defs⟩

end

section With

-- Decoders of what is inside a value, given one of values.
variable {value : Decoder Value}

lemma Call.codecWith (hvalue : Codec bound Value.toJson value) :
    Codec bound Call.toJson (Call.decoderWith value) := by
  refine Codec.record (fun c => [str c.callee, arr (c.args.map Value.toJson),
    Allocation.slotJson c.allocation]) rfl (fun c => ?_) (by decide) (fun _ => rfl) ?_ ?_
  · cases c
    rw [Call.toJson, Value.listJson_eq]
    rfl
  · simp [hvalue.plain]
  · rintro n hn ⟨callee, args, allocation⟩
    simp only [List.map_cons, List.map_nil, (Codec.text bound).required hn, hvalue.requiredList hn,
      Allocation.optional, Codec.bind_ite]
    rfl

lemma VariableDef.codecWith (hvalue : Codec bound Value.toJson value) :
    Codec bound VariableDef.toJson (VariableDef.decoderWith value) := by
  refine Codec.record (fun d => [Attribute.listJson d.attributes, d.ty.toJson, str d.name,
    d.value.toJson, Allocation.slotJson d.allocation]) rfl (fun d => ?_) (by decide) (fun _ => rfl)
    ?_ ?_
  · cases d
    rw [VariableDef.toJson]
    rfl
  · simp [(TypeRef.codec bound).plain, hvalue.plain]
  · rintro n hn ⟨attributes, ty, name, v, allocation⟩
    simp only [List.map_cons, List.map_nil, Attribute.requiredList,
      (TypeRef.codec bound).required hn, (Codec.text bound).required hn, hvalue.required hn,
      Allocation.optional, Codec.bind_ite]
    rfl

lemma Block.codecWith (hvalue : Codec bound Value.toJson value) :
    Codec bound Block.toJson (Block.decoderWith value) := by
  refine Codec.record (fun b => [arr (b.locals.map VariableDef.toJson),
    arr (b.statements.map Call.toJson)]) rfl (fun b => ?_) (by decide) (fun _ => rfl) ?_ ?_
  · cases b
    rw [Block.toJson, VariableDef.listJson_eq, Call.listJson_eq]
    rfl
  · simp [(VariableDef.codecWith hvalue).plain, (Call.codecWith hvalue).plain]
  · rintro n hn ⟨locals, statements⟩
    simp only [List.map_cons, List.map_nil, (VariableDef.codecWith hvalue).requiredList hn,
      (Call.codecWith hvalue).requiredList hn, Codec.bind_ite]
    rfl

lemma ValueKind.codecWith (hvalue : Codec bound Value.toJson value) :
    Codec bound ValueKind.toJson (ValueKind.decoderWith value) where
  plain := ValueKind.isPlain_toJson
  decodes n hn kind := by
    rcases kind with l | ⟨preset, member⟩ | name | ⟨name, indices⟩ | c | b <;>
      rw [ValueKind.toJson]
    · rcases l with s | s | i | b
      · exact Codec.decodes_case_map (Codec.text bound) (fun s => ValueKind.literal (.text s))
          (fun _ => rfl) hn
      · exact Codec.decodes_case_map (Codec.text bound) (fun s => ValueKind.literal (.string s))
          (fun _ => rfl) hn
      · exact Codec.decodes_case_map (Codec.int bound) (fun i => ValueKind.literal (.int i))
          (fun _ => rfl) hn
      · exact Codec.decodes_case_map (Codec.bool bound) (fun b => ValueKind.literal (.bool b))
          (fun _ => rfl) hn
    · refine Codec.decodes_case fun m hm => ?_
      refine Codec.decodes_record (ValueKind.presetMember preset member) [str preset, str member]
        rfl rfl (by decide) rfl fun k _ => ?_
      simp only [List.map_cons, List.map_nil, (Codec.text k).required le_rfl, Codec.bind_ite]
      rfl
    · exact Codec.decodes_case_map (Codec.text bound) ValueKind.variable (fun _ => rfl) hn
    · rw [Value.listJson_eq]
      refine Codec.decodes_case fun m hm => ?_
      refine Codec.decodes_record (ValueKind.arrayElement name indices)
        [str name, arr (indices.map Value.toJson)] rfl rfl (by decide) rfl fun k _ => ?_
      have hk : k ≤ bound := by omega
      simp only [List.map_cons, List.map_nil, (Codec.text bound).required hk,
        hvalue.requiredList hk, Codec.bind_ite]
      rfl
    · exact Codec.decodes_case_map (Call.codecWith hvalue) ValueKind.call (fun _ => rfl) hn
    · exact Codec.decodes_case_map (Block.codecWith hvalue) ValueKind.block (fun _ => rfl) hn

end With

/-- A value with at most so many levels takes no more values inside one another: each of them opens an
object. -/
lemma Value.codecUpTo (levels : Nat) : Codec levels Value.toJson (Value.decoderUpTo levels) where
  plain := Value.isPlain_toJson
  decodes n hn v := by
    induction levels generalizing n v with
    | zero =>
      -- no level is left for the object that every value is
      obtain rfl := Nat.le_zero.1 hn
      obtain ⟨kind, allocation⟩ := v
      rw [Value.toJson, Value.decoderUpTo, if_neg Json.not_within_zero_obj]
    | succ levels ih =>
      obtain ⟨kind, allocation⟩ := v
      -- the values inside are one object deeper, and one level less is left for them
      have hvalue : Codec levels Value.toJson (Value.decoderUpTo levels) :=
        ⟨Value.isPlain_toJson, ih⟩
      rw [Value.toJson]
      refine Codec.decodes_record (Value.mk kind allocation)
        [kind.toJson, Allocation.slotJson allocation] rfl rfl (by decide) rfl fun m hm => ?_
      have hm : m ≤ levels := by omega
      simp only [List.map_cons, List.map_nil, (ValueKind.codecWith hvalue).required hm,
        Allocation.optional, Codec.bind_ite]
      rfl

lemma Value.codec : Codec Decoder.limit Value.toJson Value.decoder :=
  Value.codecUpTo _

lemma Value.toJson_ne_null (v : Value) : v.toJson ≠ .null := by
  cases v
  rw [Value.toJson]
  nofun

lemma Call.codec : Codec Decoder.limit Call.toJson Call.decoder :=
  Call.codecWith Value.codec

lemma Block.codec : Codec Decoder.limit Block.toJson Block.decoder :=
  Block.codecWith Value.codec

lemma VariableDef.codec : Codec Decoder.limit VariableDef.toJson VariableDef.decoder :=
  VariableDef.codecWith Value.codec

/-! ## Definitions and sections -/

lemma ParamDef.codec : Codec Decoder.limit ParamDef.toJson ParamDef.decoder := by
  refine Codec.record (fun d => [Attribute.listJson d.attributes, str d.name, d.ty.toJson,
    Json.orNull Value.toJson d.default, Allocation.slotJson d.allocation]) rfl (fun _ => rfl)
    (by decide) (fun _ => rfl) ?_ ?_
  · simp [(TypeRef.codec 0).plain, Value.codec.isPlain_orNull Value.toJson_ne_null]
  · intro n hn d
    simp only [List.map_cons, List.map_nil, Attribute.requiredList,
      (TypeRef.codec _).required hn, (Codec.text _).required hn,
      Value.codec.optional Value.toJson_ne_null hn, Allocation.optional, Codec.bind_ite]
    rfl

lemma PresetMember.codec : Codec Decoder.limit PresetMember.toJson PresetMember.decoder := by
  refine Codec.record (fun m => [str m.name, Allocation.slotJson m.allocation]) rfl (fun _ => rfl)
    (by decide) (fun _ => rfl) ?_ ?_
  · simp
  · intro n hn m
    simp only [List.map_cons, List.map_nil, (Codec.text _).required hn, Allocation.optional,
      Codec.bind_ite]
    rfl

lemma PresetDef.codec : Codec Decoder.limit PresetDef.toJson PresetDef.decoder := by
  refine Codec.record (fun d => [Attribute.listJson d.attributes, str d.name, str d.description,
    arr (d.members.map PresetMember.toJson), Allocation.slotJson d.allocation]) rfl (fun _ => rfl)
    (by decide) (fun _ => rfl) ?_ ?_
  · simp [PresetMember.codec.plain]
  · intro n hn d
    simp only [List.map_cons, List.map_nil, Attribute.requiredList, (Codec.text _).required hn,
      PresetMember.codec.requiredList hn, Allocation.optional, Codec.bind_ite]
    rfl

lemma FunctionDef.codec : Codec Decoder.limit FunctionDef.toJson FunctionDef.decoder := by
  refine Codec.record (fun d => [d.kind.toJson, Attribute.listJson d.attributes, str d.name,
    str d.description, arr (d.params.map ParamDef.toJson), d.returns.toJson, d.body.toJson,
    Allocation.slotJson d.allocation]) rfl (fun _ => rfl) (by decide) (fun _ => rfl) ?_ ?_
  · simp [(CallableKind.codec 0).plain, ParamDef.codec.plain, (TypeRef.codec 0).plain,
      Block.codec.plain]
  · intro n hn d
    simp only [List.map_cons, List.map_nil, (CallableKind.codec _).required hn,
      Attribute.requiredList, (Codec.text _).required hn, ParamDef.codec.requiredList hn,
      (TypeRef.codec _).required hn, Block.codec.required hn, Allocation.optional, Codec.bind_ite]
    rfl

lemma TriggerDef.codec : Codec Decoder.limit TriggerDef.toJson TriggerDef.decoder := by
  refine Codec.record (fun d => [Attribute.listJson d.attributes, str d.name, str d.description,
    d.event.toJson, d.body.toJson, Allocation.slotJson d.allocation]) rfl (fun _ => rfl) (by decide)
    (fun _ => rfl) ?_ ?_
  · simp [Call.codec.plain, Block.codec.plain]
  · intro n hn d
    simp only [List.map_cons, List.map_nil, Attribute.requiredList, (Codec.text _).required hn,
      Call.codec.required hn, Block.codec.required hn, Allocation.optional, Codec.bind_ite]
    rfl

lemma Definition.codec : Codec Decoder.limit Definition.toJson Definition.decoder where
  plain d := by
    rcases d with d | d | d | d <;>
      simp [Definition.toJson, PresetDef.codec.plain, VariableDef.codec.plain,
        FunctionDef.codec.plain, TriggerDef.codec.plain]
  decodes n hn d := by
    rcases d with d | d | d | d
    · exact Codec.decodes_case_map PresetDef.codec Definition.preset (fun _ => rfl) hn
    · exact Codec.decodes_case_map VariableDef.codec Definition.variable (fun _ => rfl) hn
    · exact Codec.decodes_case_map FunctionDef.codec Definition.function (fun _ => rfl) hn
    · exact Codec.decodes_case_map TriggerDef.codec Definition.trigger (fun _ => rfl) hn

lemma ExternalParam.codec : Codec Decoder.limit ExternalParam.toJson ExternalParam.decoder := by
  refine Codec.record (fun d => [Attribute.listJson d.attributes, str d.name, d.ty.toJson,
    d.id.toJson, Json.orNull Value.toJson d.default, Allocation.slotJson d.allocation]) rfl
    (fun _ => rfl) (by decide) (fun _ => rfl) ?_ ?_
  · simp [(TypeRef.codec 0).plain, (ElementId.codec 0).plain,
      Value.codec.isPlain_orNull Value.toJson_ne_null]
  · intro n hn d
    simp only [List.map_cons, List.map_nil, Attribute.requiredList, (Codec.text _).required hn,
      (TypeRef.codec _).required hn, (ElementId.codec _).required hn,
      Value.codec.optional Value.toJson_ne_null hn, Allocation.optional, Codec.bind_ite]
    rfl

lemma ExternalFunction.codec :
    Codec Decoder.limit ExternalFunction.toJson ExternalFunction.decoder := by
  refine Codec.record (fun d => [d.kind.toJson, Attribute.listJson d.attributes, str d.name,
    d.id.toJson, arr (d.params.map ExternalParam.toJson), d.returns.toJson,
    Allocation.slotJson d.allocation]) rfl (fun _ => rfl) (by decide) (fun _ => rfl) ?_ ?_
  · simp [(CallableKind.codec 0).plain, (ElementId.codec 0).plain, ExternalParam.codec.plain,
      (TypeRef.codec 0).plain]
  · intro n hn d
    simp only [List.map_cons, List.map_nil, (CallableKind.codec _).required hn,
      Attribute.requiredList, (Codec.text _).required hn, (ElementId.codec _).required hn,
      ExternalParam.codec.requiredList hn, (TypeRef.codec _).required hn, Allocation.optional,
      Codec.bind_ite]
    rfl

lemma ExternalMember.codec : Codec Decoder.limit ExternalMember.toJson ExternalMember.decoder := by
  refine Codec.record (fun m => [str m.name, m.id.toJson, Allocation.slotJson m.allocation]) rfl
    (fun _ => rfl) (by decide) (fun _ => rfl) ?_ ?_
  · simp [(ElementId.codec 0).plain]
  · intro n hn m
    simp only [List.map_cons, List.map_nil, (Codec.text _).required hn,
      (ElementId.codec _).required hn, Allocation.optional, Codec.bind_ite]
    rfl

lemma ExternalPreset.codec : Codec Decoder.limit ExternalPreset.toJson ExternalPreset.decoder := by
  refine Codec.record (fun d => [Attribute.listJson d.attributes, str d.name,
    arr (d.members.map ExternalMember.toJson), Allocation.slotJson d.allocation]) rfl (fun _ => rfl)
    (by decide) (fun _ => rfl) ?_ ?_
  · simp [ExternalMember.codec.plain]
  · intro n hn d
    simp only [List.map_cons, List.map_nil, Attribute.requiredList, (Codec.text _).required hn,
      ExternalMember.codec.requiredList hn, Allocation.optional, Codec.bind_ite]
    rfl

lemma ExternalVariable.codec :
    Codec Decoder.limit ExternalVariable.toJson ExternalVariable.decoder := by
  refine Codec.record (fun d => [Attribute.listJson d.attributes, d.ty.toJson, str d.name,
    d.id.toJson, Allocation.slotJson d.allocation]) rfl (fun _ => rfl) (by decide) (fun _ => rfl)
    ?_ ?_
  · simp [(TypeRef.codec 0).plain, (ElementId.codec 0).plain]
  · intro n hn d
    simp only [List.map_cons, List.map_nil, Attribute.requiredList, (TypeRef.codec _).required hn,
      (Codec.text _).required hn, (ElementId.codec _).required hn, Allocation.optional,
      Codec.bind_ite]
    rfl

lemma ExternalDefinition.codec :
    Codec Decoder.limit ExternalDefinition.toJson ExternalDefinition.decoder where
  plain d := by
    rcases d with d | d | d <;>
      simp [ExternalDefinition.toJson, ExternalPreset.codec.plain, ExternalFunction.codec.plain,
        ExternalVariable.codec.plain]
  decodes n hn d := by
    rcases d with d | d | d
    · exact Codec.decodes_case_map ExternalPreset.codec ExternalDefinition.preset (fun _ => rfl) hn
    · exact Codec.decodes_case_map ExternalFunction.codec ExternalDefinition.function
        (fun _ => rfl) hn
    · exact Codec.decodes_case_map ExternalVariable.codec ExternalDefinition.variable
        (fun _ => rfl) hn

/-- The content of an import. -/
lemma ImportScope.codec : Codec Decoder.limit (fun s : ImportScope => obj [("library", str s.library),
    ("definitions", arr (s.definitions.map ExternalDefinition.toJson))]) ImportScope.decoder := by
  refine Codec.record (fun s => [str s.library, arr (s.definitions.map ExternalDefinition.toJson)])
    rfl (fun _ => rfl) (by decide) (fun _ => rfl) ?_ ?_
  · simp [ExternalDefinition.codec.plain]
  · intro n hn s
    simp only [List.map_cons, List.map_nil, (Codec.text _).required hn,
      ExternalDefinition.codec.requiredList hn, Codec.bind_ite]
    rfl

/-- The content of a library. -/
lemma LibraryScope.codec : Codec Decoder.limit (fun s : LibraryScope => obj
    [("library", str s.library), ("definitions", arr (s.definitions.map Definition.toJson))])
    LibraryScope.decoder := by
  refine Codec.record (fun s => [str s.library, arr (s.definitions.map Definition.toJson)])
    rfl (fun _ => rfl) (by decide) (fun _ => rfl) ?_ ?_
  · simp [Definition.codec.plain]
  · intro n hn s
    simp only [List.map_cons, List.map_nil, (Codec.text _).required hn,
      Definition.codec.requiredList hn, Codec.bind_ite]
    rfl

lemma Scope.codec : Codec Decoder.limit Scope.toJson Scope.decoder where
  plain s := by
    rcases s with s | s <;> simp [Scope.toJson, ExternalDefinition.codec.plain, Definition.codec.plain]
  decodes n hn s := by
    rcases s with s | s
    · exact Codec.decodes_case_map ImportScope.codec Scope.import_ (fun _ => rfl) hn
    · exact Codec.decodes_case_map LibraryScope.codec Scope.library (fun _ => rfl) hn

/-- The form of a program is decoded again, if it is not too deep and has no integer beyond a word. -/
theorem Program.codec : Codec Decoder.limit Program.toJson Program.decoder := by
  refine Codec.record (fun p => [arr (p.scopes.map Scope.toJson)]) rfl (fun _ => rfl) (by decide)
    (fun _ => rfl) ?_ ?_
  · simp [Scope.codec.plain]
  · intro n hn p
    simp only [List.map_cons, List.map_nil, Scope.codec.requiredList hn, Codec.bind_ite]
    rfl

end TriggerScript
