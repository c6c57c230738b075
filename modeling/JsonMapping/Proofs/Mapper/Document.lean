import JsonMapping.Mapper.Document
import JsonMapping.Proofs.Descriptor.Document

/-! Documents of mappers, read again. Each part of a mapper has a form that is read as that part if
all types in it are canonical: expressions and statements by induction, with as much fuel as the
form is high, the records around them field by field. The main statement is
`Mapper.ofForm_toJson`. -/

namespace JsonMapping

open Json (Form Within)
open Record (Finds)

/-! ## Heights -/

namespace Json

theorem height_object (fields : List (String × Json)) :
    (object fields).form.height = heightFields (fieldForms fields) + 1 := rfl

theorem height_array (items : List Json) :
    (array items).form.height = heightItems (itemForms items) + 1 := rfl

theorem heightFields_cons (key : String) (j : Json) (rest : List (String × Json)) :
    heightFields (fieldForms ((key, j) :: rest)) =
      max j.form.height (heightFields (fieldForms rest)) := rfl

theorem height_tagged (tag : String) (j : Json) :
    (tagged tag j).form.height = j.form.height + 1 := by
  simp [tagged, height_object, fieldForms, heightFields]

end Json

/-! ## Variants -/

namespace Shape

variable {α : Type} {read : String → Option Form → Except DocumentError α}

theorem variant_tagged (tag : String) (j : Json) :
    variant read (Json.tagged tag j).form = read tag (some j.form) := by
  simp only [Json.tagged, Json.form, Json.fieldForms, variant]
  cases read tag (some j.form) <;> rfl

/-- The contents of a variant without named fields are read back. -/
theorem content_of_form {β : Type} {value : Form → Except DocumentError α} {j : Json} {x : α}
    (make : α → β) (h : value j.form = .ok x) :
    make <$> content value (some j.form) = .ok (make x) := by
  rw [content, h]
  rfl

/-- The contents of a variant with named fields are read back. -/
theorem fields_of_finds {r : Record α} {fields : List (String × Json)} {x : α}
    (h : Finds r fields x) (name : String) :
    Shape.fields r name (some (Json.object fields).form) = .ok x :=
  h.ofForm s!"struct variant {name}" .malformed

end Shape

theorem Var.ofForm_toJson (v : Var) : ofForm v.toJson.form = .ok v := by
  cases v <;> rfl

theorem MethodKind.ofForm_tag (k : MethodKind) : ofForm (Json.string k.tag).form = .ok k := by
  cases k <;> rfl

theorem ConstantRole.ofForm_tag (r : ConstantRole) : ofForm (Json.string r.tag).form = .ok r := by
  cases r <;> rfl

/-! ## Types -/

namespace ValueType

/-- The type that is declared is canonical, if there is one. -/
def Canonical : ValueType → Prop
  | .declared type | .declaredList type => type.Canonical
  | .container | .containerList | .serializedList | .requestContext => True

theorem ofForm_toJson {t : ValueType} (h : t.Canonical) : ofForm t.toJson.form = .ok t := by
  cases t with
  | declared type =>
    rw [toJson, ofForm, Shape.variant_tagged]
    exact Shape.content_of_form declared (Shape.javaType_form h)
  | declaredList type =>
    rw [toJson, ofForm, Shape.variant_tagged]
    exact Shape.content_of_form declaredList (Shape.javaType_form h)
  | container | containerList | serializedList | requestContext => rfl

end ValueType

/-! ## Expressions -/

namespace Expr

mutual
/-- All types that the expression names are canonical. -/
def Canonical : Expr → Prop
  | .newModel t | .isInstance _ t | .mapEach _ t _ _ => t.Canonical
  | .getAttribute _ a => ∀ t ∈ a.types, t.Canonical
  | .isNull e | .apply _ e => Canonical e
  | .cast t e => t.Canonical ∧ Canonical e
  | .callMapper t _ args => t.Canonical ∧ AllCanonical args
  | .var _ | .null | .text _ | .newContainer | .emptyList | .hasKey _ _ | .lookup _ _
  | .subContainer _ _ | .links _ _ _ => True
def AllCanonical : List Expr → Prop
  | [] => True
  | e :: rest => Canonical e ∧ AllCanonical rest
end

theorem allToJson_eq_map (es : List Expr) : allToJson es = es.map toJson := by
  induction es with
  | nil => rfl
  | cons e rest ih => rw [allToJson, ih, List.map_cons]

theorem finds_keyedRecord (make : Var → String → Expr) (v : Var) (key : String) :
    Finds (keyedRecord make) [("container", v.toJson), ("key", .string key)] (make v key) := by
  have hkeys : ([("container", v.toJson), ("key", Json.string key)].map Prod.fst).Nodup := by simp
  exact ((Finds.required hkeys rfl v.ofForm_toJson).map make).seq
    (.required hkeys rfl (Shape.text_form key))

mutual
theorem read_toJson : ∀ (e : Expr) (fuel : Nat), e.Canonical → e.toJson.form.height < fuel →
    read fuel e.toJson.form = .ok e
  | _, 0, _, hfuel => absurd hfuel (Nat.not_lt_zero _)
  | .null, _ + 1, _, _ | .newContainer, _ + 1, _, _ | .emptyList, _ + 1, _, _ => rfl
  | .var v, fuel + 1, _, _ => by
    rw [toJson, read, Shape.variant_tagged]
    exact Shape.content_of_form var v.ofForm_toJson
  | .text s, fuel + 1, _, _ => by
    rw [toJson, read, Shape.variant_tagged]
    exact Shape.content_of_form text (Shape.text_form s)
  | .newModel t, fuel + 1, ht, _ => by
    rw [toJson, read, Shape.variant_tagged]
    exact Shape.content_of_form newModel (Shape.javaType_form ht)
  | .getAttribute v a, fuel + 1, ha, _ => by
    rw [toJson, read, Shape.variant_tagged]
    have hkeys : ([("target", v.toJson), ("attribute", a.toJson)].map Prod.fst).Nodup := by simp
    exact Shape.fields_of_finds (((Finds.required hkeys rfl v.ofForm_toJson).map _).seq
      (.required hkeys rfl (Attribute.ofForm_toJson ha _))) "Expr::GetAttribute"
  | .hasKey v key, fuel + 1, _, _ => by
    rw [toJson, read, keyed, Shape.variant_tagged]
    exact Shape.fields_of_finds (finds_keyedRecord hasKey v key) "Expr::HasKey"
  | .lookup v key, fuel + 1, _, _ => by
    rw [toJson, read, keyed, Shape.variant_tagged]
    exact Shape.fields_of_finds (finds_keyedRecord lookup v key) "Expr::Lookup"
  | .subContainer v key, fuel + 1, _, _ => by
    rw [toJson, read, keyed, Shape.variant_tagged]
    exact Shape.fields_of_finds (finds_keyedRecord subContainer v key) "Expr::SubContainer"
  | .isNull e, fuel + 1, he, hfuel => by
    have hinner : e.toJson.form.height < fuel := by
      simp only [toJson, Json.height_tagged] at hfuel
      omega
    rw [toJson, read, Shape.variant_tagged]
    exact Shape.content_of_form isNull (read_toJson e fuel he hinner)
  | .isInstance v t, fuel + 1, ht, _ => by
    rw [toJson, read, Shape.variant_tagged]
    have hkeys : ([("value", v.toJson), ("ty", .string t.text)].map Prod.fst).Nodup := by simp
    exact Shape.fields_of_finds (((Finds.required hkeys rfl v.ofForm_toJson).map _).seq
      (.required hkeys rfl (Shape.javaType_form ht))) "Expr::IsInstance"
  | .cast t e, fuel + 1, ⟨ht, he⟩, hfuel => by
    have hinner : e.toJson.form.height < fuel := by
      simp only [toJson, Json.height_tagged, Json.height_object, Json.heightFields_cons] at hfuel
      omega
    rw [toJson, read, Shape.variant_tagged]
    have hkeys : ([("target", t.toJson), ("value", e.toJson)].map Prod.fst).Nodup := by simp
    exact Shape.fields_of_finds (((Finds.required hkeys rfl (ValueType.ofForm_toJson ht)).map _).seq
      (.required hkeys rfl (read_toJson e fuel he hinner))) "Expr::Cast"
  | .apply c e, fuel + 1, he, hfuel => by
    have hinner : e.toJson.form.height < fuel := by
      simp only [toJson, Json.height_tagged, Json.height_object, Json.heightFields_cons] at hfuel
      omega
    rw [toJson, read, Shape.variant_tagged]
    have hkeys : ([("constant", Json.string c), ("argument", e.toJson)].map Prod.fst).Nodup := by
      simp
    exact Shape.fields_of_finds (((Finds.required hkeys rfl (Shape.text_form c)).map _).seq
      (.required hkeys rfl (read_toJson e fuel he hinner))) "Expr::Apply"
  | .links c v context, fuel + 1, _, _ => by
    rw [toJson, read, Shape.variant_tagged]
    have hkeys : ([("constant", Json.string c), ("value", v.toJson),
      ("context", context.toJson)].map Prod.fst).Nodup := by simp
    exact Shape.fields_of_finds ((((Finds.required hkeys rfl (Shape.text_form c)).map _).seq
      (.required hkeys rfl v.ofForm_toJson)).seq
      (.required hkeys rfl context.ofForm_toJson)) "Expr::Links"
  | .callMapper t k args, fuel + 1, ⟨ht, hargs⟩, hfuel => by
    have hinner : Json.heightItems (Json.itemForms (allToJson args)) < fuel := by
      simp only [toJson, Json.height_tagged, Json.height_object, Json.heightFields_cons,
        Json.height_array] at hfuel
      omega
    have hlist := Shape.list_form (read_allToJson args fuel hargs hinner)
    rw [← allToJson_eq_map] at hlist
    rw [toJson, read, Shape.variant_tagged]
    have hkeys : ([("mapper", Json.string t.text), ("function", .string k.tag),
      ("args", .array (allToJson args))].map Prod.fst).Nodup := by simp
    exact Shape.fields_of_finds ((((Finds.required hkeys rfl (Shape.javaType_form ht)).map _).seq
      (.required hkeys rfl k.ofForm_tag)).seq (.required hkeys rfl hlist)) "Expr::CallMapper"
  | .mapEach v t k context, fuel + 1, ht, _ => by
    rw [toJson, read, Shape.variant_tagged]
    have hkeys : ([("source", v.toJson), ("mapper", Json.string t.text),
      ("function", .string k.tag), ("context", (context.map Var.toJson).getD .null)].map
        Prod.fst).Nodup := by simp
    have hcontext : Shape.option Var.ofForm ((context.map Var.toJson).getD .null).form =
        .ok context := by
      cases context with
      | none => rfl
      | some w => exact Shape.option_of_ok w.ofForm_toJson (by simp [Var.toJson, Json.form])
    exact Shape.fields_of_finds (((((Finds.required hkeys rfl v.ofForm_toJson).map _).seq
      (.required hkeys rfl (Shape.javaType_form ht))).seq (.required hkeys rfl k.ofForm_tag)).seq
      (.field hkeys rfl hcontext)) "Expr::MapEach"
theorem read_allToJson : ∀ (es : List Expr) (fuel : Nat), AllCanonical es →
    Json.heightItems (Json.itemForms (allToJson es)) < fuel →
      ∀ e ∈ es, read fuel e.toJson.form = .ok e
  | [], _, _, _ => by simp
  | e :: rest, fuel, ⟨he, hrest⟩, hfuel => by
    simp only [allToJson, Json.itemForms, Json.heightItems] at hfuel
    refine List.forall_mem_cons.mpr ⟨read_toJson e fuel he (by omega), ?_⟩
    exact read_allToJson rest fuel hrest (by omega)
end

theorem ofForm_toJson {e : Expr} (h : e.Canonical) : ofForm e.toJson.form = .ok e :=
  read_toJson e _ h (Nat.lt_succ_self _)

end Expr

/-! ## Statements -/

namespace Stmt

mutual
/-- All types that the statement names are canonical. -/
def Canonical : Stmt → Prop
  | .declare _ t e => t.Canonical ∧ e.Canonical
  | .assign _ e | .put _ _ e | .putAll _ e | .ret e => e.Canonical
  | .setAttribute _ a e => (∀ t ∈ a.types, t.Canonical) ∧ e.Canonical
  | .when e body => e.Canonical ∧ AllCanonical body
  | .select e arms => e.Canonical ∧ ArmsCanonical arms
def AllCanonical : List Stmt → Prop
  | [] => True
  | s :: rest => Canonical s ∧ AllCanonical rest
def ArmsCanonical : List (String × List Stmt) → Prop
  | [] => True
  | (_, body) :: rest => AllCanonical body ∧ ArmsCanonical rest
end

theorem allToJson_eq_map (stmts : List Stmt) : allToJson stmts = stmts.map toJson := by
  induction stmts with
  | nil => rfl
  | cons s rest ih => rw [allToJson, ih, List.map_cons]

def armToJson (arm : String × List Stmt) : Json :=
  .object [("literal", .string arm.1), ("body", .array (allToJson arm.2))]

theorem armsToJson_eq_map (arms : List (String × List Stmt)) :
    armsToJson arms = arms.map armToJson := by
  induction arms with
  | nil => rfl
  | cons arm rest ih =>
    obtain ⟨literal, body⟩ := arm
    rw [armsToJson, ih, List.map_cons, armToJson]

def armRecord (statement : Form → Except DocumentError Stmt) : Record (String × List Stmt) :=
  Prod.mk <$> .required "literal" Shape.text <*> .required "body" (Shape.list statement)

theorem armRecord_armToJson {statement : Form → Except DocumentError Stmt} {literal : String}
    {body : List Stmt} (h : ∀ s ∈ body, statement s.toJson.form = .ok s) :
    (armRecord statement).ofForm "struct MatchArm" .malformed (armToJson (literal, body)).form =
      .ok (literal, body) := by
  have hlist := Shape.list_form h
  rw [← allToJson_eq_map] at hlist
  have hkeys : ([("literal", Json.string literal), ("body", .array (allToJson body))].map
    Prod.fst).Nodup := by simp
  exact (((Finds.required hkeys rfl (Shape.text_form literal)).map _).seq
    (.required hkeys rfl hlist)).ofForm _ _

mutual
theorem read_toJson : ∀ (s : Stmt) (fuel : Nat), s.Canonical → s.toJson.form.height < fuel →
    read fuel s.toJson.form = .ok s
  | _, 0, _, hfuel => absurd hfuel (Nat.not_lt_zero _)
  | .declare v t e, fuel + 1, ⟨ht, he⟩, _ => by
    rw [toJson, read, Shape.variant_tagged]
    have hkeys : ([("var", v.toJson), ("ty", t.toJson), ("init", e.toJson)].map
      Prod.fst).Nodup := by simp
    exact Shape.fields_of_finds ((((Finds.required hkeys rfl v.ofForm_toJson).map _).seq
      (.required hkeys rfl (ValueType.ofForm_toJson ht))).seq
      (.required hkeys rfl (Expr.ofForm_toJson he))) "Stmt::Declare"
  | .assign v e, fuel + 1, he, _ => by
    rw [toJson, read, Shape.variant_tagged]
    have hkeys : ([("var", v.toJson), ("value", e.toJson)].map Prod.fst).Nodup := by simp
    exact Shape.fields_of_finds (((Finds.required hkeys rfl v.ofForm_toJson).map _).seq
      (.required hkeys rfl (Expr.ofForm_toJson he))) "Stmt::Assign"
  | .put v key e, fuel + 1, he, _ => by
    rw [toJson, read, Shape.variant_tagged]
    have hkeys : ([("target", v.toJson), ("key", .string key), ("value", e.toJson)].map
      Prod.fst).Nodup := by simp
    exact Shape.fields_of_finds ((((Finds.required hkeys rfl v.ofForm_toJson).map _).seq
      (.required hkeys rfl (Shape.text_form key))).seq
      (.required hkeys rfl (Expr.ofForm_toJson he))) "Stmt::Put"
  | .putAll v e, fuel + 1, he, _ => by
    rw [toJson, read, Shape.variant_tagged]
    have hkeys : ([("target", v.toJson), ("source", e.toJson)].map Prod.fst).Nodup := by simp
    exact Shape.fields_of_finds (((Finds.required hkeys rfl v.ofForm_toJson).map _).seq
      (.required hkeys rfl (Expr.ofForm_toJson he))) "Stmt::PutAll"
  | .setAttribute v a e, fuel + 1, ⟨ha, he⟩, _ => by
    rw [toJson, read, Shape.variant_tagged]
    have hkeys : ([("target", v.toJson), ("attribute", a.toJson), ("value", e.toJson)].map
      Prod.fst).Nodup := by simp
    exact Shape.fields_of_finds ((((Finds.required hkeys rfl v.ofForm_toJson).map _).seq
      (.required hkeys rfl (Attribute.ofForm_toJson ha _))).seq
      (.required hkeys rfl (Expr.ofForm_toJson he))) "Stmt::SetAttribute"
  | .when e body, fuel + 1, ⟨he, hbody⟩, hfuel => by
    have hinner : Json.heightItems (Json.itemForms (allToJson body)) < fuel := by
      simp only [toJson, Json.height_tagged, Json.height_object, Json.heightFields_cons,
        Json.height_array] at hfuel
      omega
    have hlist := Shape.list_form (read_allToJson body fuel hbody hinner)
    rw [← allToJson_eq_map] at hlist
    rw [toJson, read, Shape.variant_tagged]
    have hkeys : ([("condition", e.toJson), ("then", .array (allToJson body))].map
      Prod.fst).Nodup := by simp
    exact Shape.fields_of_finds (((Finds.required hkeys rfl (Expr.ofForm_toJson he)).map _).seq
      (.required hkeys rfl hlist)) "Stmt::If"
  | .select e arms, fuel + 1, ⟨he, harms⟩, hfuel => by
    have hinner : Json.heightItems (Json.itemForms (armsToJson arms)) < fuel + 2 := by
      simp only [toJson, Json.height_tagged, Json.height_object, Json.heightFields_cons,
        Json.height_array] at hfuel
      omega
    have hlist := Shape.list_form (read_armsToJson arms fuel harms hinner)
    rw [← armsToJson_eq_map] at hlist
    rw [toJson, read, Shape.variant_tagged]
    have hkeys : ([("scrutinee", e.toJson), ("arms", .array (armsToJson arms))].map
      Prod.fst).Nodup := by simp
    exact Shape.fields_of_finds (((Finds.required hkeys rfl (Expr.ofForm_toJson he)).map _).seq
      (.required hkeys rfl hlist)) "Stmt::Match"
  | .ret e, fuel + 1, he, _ => by
    rw [toJson, read, Shape.variant_tagged]
    exact Shape.content_of_form ret (Expr.ofForm_toJson he)
theorem read_allToJson : ∀ (stmts : List Stmt) (fuel : Nat), AllCanonical stmts →
    Json.heightItems (Json.itemForms (allToJson stmts)) < fuel →
      ∀ s ∈ stmts, read fuel s.toJson.form = .ok s
  | [], _, _, _ => by simp
  | s :: rest, fuel, ⟨hs, hrest⟩, hfuel => by
    simp only [allToJson, Json.itemForms, Json.heightItems] at hfuel
    refine List.forall_mem_cons.mpr ⟨read_toJson s fuel hs (by omega), ?_⟩
    exact read_allToJson rest fuel hrest (by omega)
theorem read_armsToJson : ∀ (arms : List (String × List Stmt)) (fuel : Nat), ArmsCanonical arms →
    Json.heightItems (Json.itemForms (armsToJson arms)) < fuel + 2 →
      ∀ arm ∈ arms, (armRecord (read fuel)).ofForm "struct MatchArm" .malformed
        (armToJson arm).form = .ok arm
  | [], _, _, _ => by simp
  | (literal, body) :: rest, fuel, ⟨hbody, hrest⟩, hfuel => by
    simp only [armsToJson, Json.itemForms, Json.heightItems, Json.height_object,
      Json.heightFields_cons, Json.height_array] at hfuel
    refine List.forall_mem_cons.mpr ⟨?_, read_armsToJson rest fuel hrest (by omega)⟩
    exact armRecord_armToJson (read_allToJson body fuel hbody (by omega))
end

theorem ofForm_toJson {s : Stmt} (h : s.Canonical) : ofForm s.toJson.form = .ok s :=
  read_toJson s _ h (Nat.lt_succ_self _)

theorem allCanonical_iff {stmts : List Stmt} : AllCanonical stmts ↔ ∀ s ∈ stmts, s.Canonical := by
  induction stmts with
  | nil => simp [AllCanonical]
  | cons s rest ih => simp [AllCanonical, ih]

theorem armsCanonical_iff {arms : List (String × List Stmt)} :
    ArmsCanonical arms ↔ ∀ arm ∈ arms, AllCanonical arm.2 := by
  induction arms with
  | nil => simp [ArmsCanonical]
  | cons arm rest ih =>
    obtain ⟨literal, body⟩ := arm
    simp [ArmsCanonical, ih]

end Stmt

/-! ## Mappers -/

namespace Param

theorem ofForm_toJson {p : Param} (h : p.type.Canonical) :
    record.ofForm "struct Param" .malformed p.toJson.form = .ok p := by
  have hkeys : ([("var", p.var.toJson), ("ty", p.type.toJson)].map Prod.fst).Nodup := by simp
  exact (((Finds.required hkeys rfl p.var.ofForm_toJson).map _).seq
    (.required hkeys rfl (ValueType.ofForm_toJson h))).ofForm _ _

end Param

namespace Method

/-- All types that the method names are canonical. -/
structure Canonical (m : Method) : Prop where
  params : ∀ p ∈ m.params, p.type.Canonical
  returns : m.returns.Canonical
  body : ∀ s ∈ m.body, s.Canonical

theorem ofForm_toJson {m : Method} (h : m.Canonical) :
    record.ofForm "struct Function" .malformed m.toJson.form = .ok m := by
  have hparams := Shape.list_form fun p (hp : p ∈ m.params) => Param.ofForm_toJson (h.params p hp)
  have hbody := Shape.list_form fun s (hs : s ∈ m.body) => Stmt.ofForm_toJson (h.body s hs)
  rw [← Stmt.allToJson_eq_map] at hbody
  have hkeys : ([("kind", Json.string m.kind.tag), ("params", .array (m.params.map Param.toJson)),
    ("returns", m.returns.toJson), ("body", .array (Stmt.allToJson m.body))].map
      Prod.fst).Nodup := by simp
  exact (((((Finds.required hkeys rfl m.kind.ofForm_tag).map _).seq
    (.required hkeys rfl hparams)).seq
    (.required hkeys rfl (ValueType.ofForm_toJson h.returns))).seq
    (.required hkeys rfl hbody)).ofForm _ _

end Method

theorem Constant.ofForm_toJson {c : Constant} (h : c.type.Canonical) :
    record.ofForm "struct Constant" .malformed c.toJson.form = .ok c := by
  have hkeys : ([("name", Json.string c.name), ("role", .string c.role.tag),
    ("ty", .string c.type.text)].map Prod.fst).Nodup := by simp
  exact ((((Finds.required hkeys rfl (Shape.text_form c.name)).map _).seq
    (.required hkeys rfl c.role.ofForm_tag)).seq
    (.required hkeys rfl (Shape.javaType_form h))).ofForm _ _

namespace Mapper

/-- All types that the mapper names are canonical. -/
structure Canonical (m : Mapper) : Prop where
  type : m.type.Canonical
  representer : m.representer.type.Canonical
  model : m.model.Canonical
  constants : ∀ c ∈ m.constants, c.type.Canonical
  methods : ∀ method ∈ m.methods, method.Canonical

theorem ofForm_toJson {m : Mapper} (h : m.Canonical) : ofForm m.toJson.form = .ok m := by
  have hconstants := Shape.list_form fun c (hc : c ∈ m.constants) =>
    Constant.ofForm_toJson (h.constants c hc)
  have hmethods := Shape.list_form fun method (hm : method ∈ m.methods) =>
    Method.ofForm_toJson (h.methods method hm)
  have hkeys : ([("mapper", Json.string m.type.text),
    ("representer", .string m.representer.type.text), ("model", .string m.model.text),
    ("constants", .array (m.constants.map Constant.toJson)),
    ("functions", .array (m.methods.map Method.toJson))].map Prod.fst).Nodup := by simp
  exact ((((((Finds.required hkeys rfl (Shape.javaType_form h.type)).map _).seq
    (.required hkeys rfl (Shape.representerId_form h.representer))).seq
    (.required hkeys rfl (Shape.javaType_form h.model))).seq
    (.required hkeys rfl hconstants)).seq (.required hkeys rfl hmethods)).ofForm _ _

end Mapper

end JsonMapping
