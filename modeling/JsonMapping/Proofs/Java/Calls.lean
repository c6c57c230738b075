import JsonMapping.Proofs.Java.Layout
import JsonMapping.Proofs.Scope.Demands

/-! The calls that a file prints: the name of a class, and right behind it a method by the name of
those that mappers have. Each of them is a call in a method of the mapper, or the one of the class
of the library that adds links. The main statement is `Mapper.makes_of_printsCall`. -/

namespace JsonMapping

/-- Among the parts of a mapper is a call of a method of this name. -/
def CalledIn (ms : List Mention) (t : JavaType) (method : String) : Prop :=
  ∃ e k, .expr e ∈ ms ∧ e.callee? = some (t, k) ∧ k.methodName = method

theorem CalledIn.mono {ms ms' : List Mention} {t : JavaType} {method : String}
    (h : CalledIn ms t method) (hms : ms ⊆ ms') : CalledIn ms' t method := by
  obtain ⟨e, k, he, hcallee, hname⟩ := h
  exact ⟨e, k, hms he, hcallee, hname⟩

theorem Method.calledIn_body_iff {m : Method} {t : JavaType} {method : String} :
    CalledIn (Stmt.mentionsAll m.body) t method ↔ ∃ k, m.Calls t k ∧ k.methodName = method := by
  constructor
  · rintro ⟨e, k, he, hcallee, hname⟩
    exact ⟨k, ⟨e, he, hcallee⟩, hname⟩
  · rintro ⟨k, ⟨e, he, hcallee⟩, hname⟩
    exact ⟨e, k, he, hcallee, hname⟩

namespace Java

/-- The parts name a class and, right behind it, call a method. -/
def PrintsCall (parts : List Part) (t : JavaType) (method : String) : Prop :=
  ∃ text, [.name t, .code text] <:+: parts ∧ '.' :: method.toList ++ ['('] <+: text.toList

section PrintsCall

variable {t u : JavaType} {method text : String} {parts rest : List Part}

@[simp] theorem not_printsCall_nil : ¬ PrintsCall [] t method := by
  simp [PrintsCall]

@[simp] theorem printsCall_code_cons :
    PrintsCall (.code text :: rest) t method ↔ PrintsCall rest t method := by
  simp [PrintsCall, List.infix_cons_iff, Part.code]

@[simp] theorem printsCall_literal_cons {value : String} :
    PrintsCall (.literal value :: rest) t method ↔ PrintsCall rest t method := by
  simp [PrintsCall, List.infix_cons_iff, Part.literal, Part.code]

theorem printsCall_name_code (h : PrintsCall (.name u :: .code text :: rest) t method) :
    (u = t ∧ '.' :: method.toList ++ ['('] <+: text.toList) ∨ PrintsCall rest t method := by
  obtain ⟨called, hinfix, hcall⟩ := h
  rcases List.infix_cons_iff.mp hinfix with hfirst | hrest
  · simp only [List.cons_prefix_cons, Part.name.injEq, Part.code, Part.piece.injEq,
      Piece.code.injEq] at hfirst
    obtain ⟨rfl, rfl, -⟩ := hfirst
    exact .inl ⟨rfl, hcall⟩
  · exact .inr (printsCall_code_cons.mp ⟨called, hrest, hcall⟩)

/-- The text that is printed has the name of the class and the call. -/
theorem PrintsCall.infix_filled (names : TypeNames) (h : PrintsCall parts t method) :
    (names.className t).toList ++ '.' :: method.toList ++ ['('] <:+: filled names parts := by
  obtain ⟨text, ⟨before, after, rfl⟩, more, htext⟩ := h
  refine ⟨filled names before, more ++ filled names after, ?_⟩
  simp [← htext]

/-- Right behind a name, the code calls no method. -/
def NoCall (text : String) : Prop :=
  ∀ k : MethodKind, ¬ '.' :: k.methodName.toList ++ ['('] <+: text.toList

theorem noCall_of_head (h : text.toList.head? ≠ some '.') : NoCall text := by
  rintro k ⟨more, htext⟩
  rw [← htext] at h
  exact h rfl

end PrintsCall

/-! ## Parts that account for their calls -/

/-- In front of code that is no call, and whatever comes then, the parts print a call only if it is
accounted for. -/
def Accounts (called : JavaType → String → Prop) (parts : List Part) : Prop :=
  ∀ text rest t (k : MethodKind), NoCall text →
    PrintsCall (parts ++ .code text :: rest) t k.methodName →
      called t k.methodName ∨ PrintsCall rest t k.methodName

namespace Accounts

variable {called called' : JavaType → String → Prop} {parts parts' : List Part} {text : String}
  {t : JavaType} {k : MethodKind}

theorem called_of_printsCall (h : Accounts called parts) (htext : NoCall text)
    (hprints : PrintsCall (parts ++ [.code text]) t k.methodName) : called t k.methodName :=
  (h text [] t k htext hprints).resolve_right not_printsCall_nil

theorem mono (h : Accounts called parts)
    (hcalled : ∀ t (k : MethodKind), called t k.methodName → called' t k.methodName) :
    Accounts called' parts :=
  fun text rest t k htext hprints => (h text rest t k htext hprints).imp_left (hcalled t k)

theorem nil : Accounts called [] := fun _ _ _ _ _ hprints =>
  .inr (printsCall_code_cons.mp hprints)

theorem code (text : String) (h : Accounts called parts) :
    Accounts called (.code text :: parts) := fun _ _ _ _ htext hprints =>
  h _ _ _ _ htext (printsCall_code_cons.mp hprints)

theorem literal (value : String) (h : Accounts called parts) :
    Accounts called (.literal value :: parts) := fun _ _ _ _ htext hprints =>
  h _ _ _ _ htext (printsCall_literal_cons.mp hprints)

theorem append_code (h : Accounts called parts) (htext : NoCall text)
    (h' : Accounts called parts') : Accounts called (parts ++ .code text :: parts') := by
  intro text' rest t k htext' hprints
  rw [List.append_assoc] at hprints
  exact (h _ _ _ _ htext hprints).elim .inl (h' _ _ _ _ htext')

theorem joined {partss : List (List Part)} (h : ∀ parts ∈ partss, Accounts called parts) :
    Accounts called (joinedParts ", " partss) := by
  unfold joinedParts
  induction partss with
  | nil => exact nil
  | cons first rest ih =>
    have hfirst := h first List.mem_cons_self
    cases rest with
    | nil => simpa using hfirst
    | cons second more =>
      have hrest := ih fun parts hparts => h parts (List.mem_cons_of_mem _ hparts)
      rw [List.intercalate_cons_cons]
      simpa using hfirst.append_code (noCall_of_head (by decide)) hrest

end Accounts

end Java

open Java (Part Library PrintsCall NoCall Accounts Sketch noCall_of_head)

variable {called : JavaType → String → Prop} {lib : Library}

/-! ## Types -/

namespace JavaType

theorem exists_argLayout_eq (us : List JavaType) :
    ∃ text rest, argLayout us = .code text :: rest ∧ NoCall text := by
  cases us with
  | nil => exact ⟨_, _, rfl, noCall_of_head (by decide)⟩
  | cons u us => exact ⟨_, _, rfl, noCall_of_head (by decide)⟩

/-- Behind an argument there is always code that is no call. -/
theorem printsCall_of_arg {t u : JavaType} {k : MethodKind} {us : List JavaType} {rest : List Part}
    (hu : ∀ text rest, PrintsCall (u.layout ++ .code text :: rest) t k.methodName →
      (u = t ∧ '.' :: k.methodName.toList ++ ['('] <+: text.toList) ∨
        PrintsCall rest t k.methodName)
    (h : PrintsCall (u.layout ++ (argLayout us ++ rest)) t k.methodName) :
    PrintsCall (argLayout us ++ rest) t k.methodName := by
  obtain ⟨text, more, hargs, hno⟩ := exists_argLayout_eq us
  rw [hargs] at h ⊢
  rcases hu _ _ h with ⟨-, hcall⟩ | hmore
  · exact absurd hcall (hno k)
  · exact Java.printsCall_code_cons.mpr hmore

mutual
/-- A type is followed by a call only if it has no arguments, and then that is on its class. -/
theorem printsCall_layout {t : JavaType} {k : MethodKind} (u : JavaType) {text : String}
    {rest : List Part} (h : PrintsCall (u.layout ++ .code text :: rest) t k.methodName) :
    (u = t ∧ '.' :: k.methodName.toList ++ ['('] <+: text.toList) ∨
      PrintsCall rest t k.methodName := by
  match u with
  | .mk p e n [] => exact Java.printsCall_name_code (by simpa [layout] using h)
  | .mk p e n (a :: as) =>
    have hbracket : NoCall "<" := noCall_of_head (by decide)
    rcases Java.printsCall_name_code (by simpa [layout] using h) with ⟨-, hcall⟩ | hargs
    · exact absurd hcall (hbracket k)
    · have hrest := printsCall_of_arg (fun _ _ => printsCall_layout a) hargs
      exact .inr (printsCall_argLayout as hrest)
theorem printsCall_argLayout {t : JavaType} {k : MethodKind} (us : List JavaType) {text : String}
    {rest : List Part} (h : PrintsCall (argLayout us ++ .code text :: rest) t k.methodName) :
    PrintsCall rest t k.methodName := by
  match us with
  | [] => simpa [argLayout] using h
  | a :: as =>
    have hargs : PrintsCall (a.layout ++ (argLayout as ++ .code text :: rest)) t k.methodName := by
      simpa [argLayout] using h
    exact printsCall_argLayout as (printsCall_of_arg (fun _ _ => printsCall_layout a) hargs)
end

theorem accounts_layout (u : JavaType) : Accounts called u.layout := by
  intro text rest t k htext h
  exact (printsCall_layout u h).imp_left fun hcall => absurd hcall.2 (htext k)

end JavaType

/-- Whatever method the code behind the class calls, that call is accounted for. -/
theorem JavaType.accounts_layout_call {u : JavaType} {text : String} {parts : List Part}
    (hcall : ∀ k : MethodKind, '.' :: k.methodName.toList ++ ['('] <+: text.toList →
      called u k.methodName)
    (h : Accounts called parts) : Accounts called (u.layout ++ .code text :: parts) := by
  intro text' rest t k htext hprints
  rw [List.append_assoc] at hprints
  rcases printsCall_layout u hprints with ⟨rfl, hprefix⟩ | hrest
  · exact .inl (hcall k hprefix)
  · exact h _ _ _ _ htext hrest

theorem MethodKind.methodName_eq_of_prefix {k k' : MethodKind} {more : List Char}
    (h : '.' :: k.methodName.toList ++ ['('] <+: '.' :: k'.methodName.toList ++ '(' :: more) :
    k'.methodName = k.methodName := by
  cases k <;> cases k' <;> first | rfl | simp [methodName] at h

/-- The code behind the class is a call of this method, and of no other. -/
theorem JavaType.accounts_call {u : JavaType} {k : MethodKind} {text : String} {parts : List Part}
    (htext : '.' :: k.methodName.toList ++ ['('] <+: text.toList) (hcalled : called u k.methodName)
    (h : Accounts called parts) : Accounts called (u.layout ++ .code text :: parts) := by
  obtain ⟨more, hmore⟩ := htext
  refine accounts_layout_call (fun k' hprefix => ?_) h
  rw [← hmore, List.append_assoc] at hprefix
  rw [← MethodKind.methodName_eq_of_prefix hprefix]
  exact hcalled

theorem ValueType.accounts_layout (t : ValueType) : Accounts called (t.layout lib) := by
  have hopen : NoCall "<" := noCall_of_head (by decide)
  have hclose : NoCall ">" := noCall_of_head (by decide)
  cases t with
  | declared t => exact t.accounts_layout
  | declaredList t =>
    exact Java.list.accounts_layout.append_code hopen
      (t.accounts_layout.append_code hclose .nil)
  | containerList =>
    exact Java.list.accounts_layout.append_code hopen
      (Java.map.accounts_layout.append_code hclose .nil)
  | container => exact Java.map.accounts_layout
  | serializedList => exact Java.list.accounts_layout
  | requestContext => exact lib.requestContext.accounts_layout

/-! ## Expressions and statements -/

/-- The calls of these parts of a mapper, and the one that adds links. -/
def CallsOf (lib : Library) (ms : List Mention) (t : JavaType) (method : String) : Prop :=
  t = lib.linksMapper ∨ CalledIn ms t method

theorem Java.Accounts.callsOf_mono {ms ms' : List Mention} {parts : List Part}
    (h : Accounts (CallsOf lib ms) parts) (hms : ms ⊆ ms') : Accounts (CallsOf lib ms') parts :=
  h.mono fun _ _ => Or.imp_right (·.mono hms)

namespace Expr

mutual
theorem accounts_layout (lib : Library) (e : Expr) :
    Accounts (CallsOf lib e.mentions) (e.layout lib) := by
  have hparens : NoCall "()" := noCall_of_head (by decide)
  have hclose : NoCall ")" := noCall_of_head (by decide)
  cases e with
  | var v | null | getAttribute v a => exact .code _ .nil
  | text s => exact .literal _ .nil
  | hasKey v key | lookup v key => exact .code _ (.literal _ (.code _ .nil))
  | newContainer =>
    exact .code _ (Java.linkedHashMap.accounts_layout.append_code hparens .nil)
  | newModel t => exact .code _ (t.accounts_layout.append_code hparens .nil)
  | isInstance v t => exact .code _ t.accounts_layout
  | emptyList =>
    have hempty : NoCall ".emptyList()" := fun k => by cases k <;> decide
    exact Java.collections.accounts_layout.append_code hempty .nil
  | subContainer v key =>
    have hempty : NoCall ".emptyMap())" := fun k => by cases k <;> decide
    have hcast : NoCall s!") {v.javaName}.getOrDefault(" :=
      noCall_of_head (by simp [ToString.toString])
    simp only [layout, List.append_assoc]
    exact .code _ (Java.map.accounts_layout.append_code hcast (.literal _ (.code _
      (Java.collections.accounts_layout.append_code hempty .nil))))
  | isNull e =>
    have hnull : NoCall " == null" := noCall_of_head (by decide)
    have he := (accounts_layout lib e).callsOf_mono (List.subset_cons_self (.expr (.isNull e)) _)
    exact he.append_code hnull .nil
  | cast t e =>
    have hparts : e.mentions ⊆ (Expr.cast t e).mentions := by
      rw [mentions]
      exact List.subset_cons_of_subset _ (List.subset_append_right _ _)
    have he := (accounts_layout lib e).callsOf_mono hparts
    have hcast : NoCall ") " := noCall_of_head (by decide)
    exact .code _ (t.accounts_layout.append_code hcast he)
  | apply c e =>
    have he := (accounts_layout lib e).callsOf_mono (List.subset_cons_self (.expr (.apply c e)) _)
    exact .code _ (he.append_code hclose .nil)
  | links c v context =>
    exact lib.linksMapper.accounts_layout_call (fun _ _ => .inl rfl) .nil
  | callMapper t k args =>
    have hself : Mention.expr (.callMapper t k args) ∈ (Expr.callMapper t k args).mentions := by
      rw [mentions]
      exact List.mem_cons_self
    have hargs : mentionsAll args ⊆ (Expr.callMapper t k args).mentions := by
      rw [mentions]
      exact List.subset_cons_of_subset _ (List.subset_cons_self _ _)
    have hjoined := Java.Accounts.joined fun parts hparts =>
      (accounts_layoutAll lib args parts hparts).callsOf_mono hargs
    have hcall : '.' :: k.methodName.toList ++ ['('] <+: (s!".{k.methodName}(").toList := by
      simp [ToString.toString]
    simp only [layout, List.append_assoc, List.cons_append]
    exact t.accounts_call hcall (.inr ⟨_, k, hself, rfl, rfl⟩) (hjoined.append_code hclose .nil)
  | mapEach v t k context =>
    have hself : Mention.expr (.mapEach v t k context) ∈ (Expr.mapEach v t k context).mentions := by
      rw [mentions]
      exact List.mem_cons_self
    have hlist : NoCall ".toList())" := fun k => by cases k <;> decide
    simp only [layout, List.append_assoc]
    exact .code _ (t.accounts_call (by simp [ToString.toString]) (.inr ⟨_, k, hself, rfl, rfl⟩)
      (Java.collectors.accounts_layout.append_code hlist .nil))
theorem accounts_layoutAll (lib : Library) (es : List Expr) :
    ∀ parts ∈ layoutAll lib es, Accounts (CallsOf lib (mentionsAll es)) parts := by
  match es with
  | [] => simp [layoutAll]
  | e :: rest =>
    rw [layoutAll, mentionsAll, List.forall_mem_cons]
    exact ⟨(accounts_layout lib e).callsOf_mono (List.subset_append_left _ _), fun parts hparts =>
      (accounts_layoutAll lib rest parts hparts).callsOf_mono (List.subset_append_right _ _)⟩
end

end Expr

/-! ## Sketches -/

namespace Java

/-- Every call that one of the sketches prints is accounted for. -/
def AllAccount (called : JavaType → String → Prop) (ss : List Sketch) : Prop :=
  ∀ s ∈ ss, ∀ t (k : MethodKind), PrintsCall s.parts t k.methodName → called t k.methodName

namespace AllAccount

variable {called' : JavaType → String → Prop} {ss ss' : List Sketch} {parts : List Part}
  {text : String}

theorem nil : AllAccount called [] := fun _ hs => (nomatch hs)

theorem append (h : AllAccount called ss) (h' : AllAccount called ss') :
    AllAccount called (ss ++ ss') :=
  List.forall_mem_append.mpr ⟨h, h'⟩

theorem mono (h : AllAccount called ss)
    (hcalled : ∀ t (k : MethodKind), called t k.methodName → called' t k.methodName) :
    AllAccount called' ss :=
  fun s hs t k hprints => hcalled t k (h s hs t k hprints)

theorem callsOf_mono {ms ms' : List Mention} (h : AllAccount (CallsOf lib ms) ss)
    (hms : ms ⊆ ms') : AllAccount (CallsOf lib ms') ss :=
  h.mono fun _ _ => Or.imp_right (·.mono hms)

theorem nested (h : AllAccount called ss) : AllAccount called (ss.map Sketch.nested) :=
  List.forall_mem_map.mpr h

/-- A line that ends in code. -/
theorem line (h : Accounts called parts) (htext : NoCall text) :
    AllAccount called [.ofParts (parts ++ [.code text])] := by
  intro s hs t k hprints
  rw [List.mem_singleton.mp hs] at hprints
  exact h.called_of_printsCall htext hprints

theorem block (h : Accounts called parts) (hbody : AllAccount called ss) :
    AllAccount called (Sketch.block parts ss) :=
  (line h (noCall_of_head (by decide))).append
    (hbody.nested.append (line .nil (noCall_of_head (by decide))))

theorem chain {blocks : List (List Part × List Sketch)}
    (h : ∀ b ∈ blocks, Accounts called b.1 ∧ AllAccount called b.2) :
    AllAccount called (Sketch.chain blocks) := by
  induction blocks with
  | nil => exact line .nil (noCall_of_head (by decide))
  | cons b rest ih =>
    obtain ⟨⟨hheader, hbody⟩, hrest⟩ := List.forall_mem_cons.mp h
    exact (line (hheader.code _) (noCall_of_head (by decide))).append
      (hbody.nested.append (ih hrest))

theorem blank : AllAccount called [.blank] := by
  intro s hs t k hprints
  rw [List.mem_singleton.mp hs] at hprints
  exact absurd hprints not_printsCall_nil

theorem spaced {groups : List (List Sketch)} (h : ∀ ss ∈ groups, AllAccount called ss) :
    AllAccount called (List.intercalate [.blank] groups) := by
  induction groups with
  | nil => exact nil
  | cons first rest ih =>
    obtain ⟨hfirst, hrest⟩ := List.forall_mem_cons.mp h
    cases rest with
    | nil => simpa using hfirst
    | cons second more =>
      rw [List.intercalate_cons_cons]
      exact (hfirst.append blank).append (ih hrest)

end AllAccount

end Java

open Java (AllAccount)

namespace Stmt

theorem accounts_conditionLayout {parts : List Part} (h : Accounts called parts)
    (value : String) : Accounts called (conditionLayout parts value) :=
  .code _ (.literal _ (.code _ (h.append_code (noCall_of_head (by decide)) .nil)))

mutual
theorem account_layout (lib : Library) (s : Stmt) :
    AllAccount (CallsOf lib s.mentions) (s.layout lib) := by
  have hend : NoCall ";" := noCall_of_head (by decide)
  have hclose : NoCall ");" := noCall_of_head (by decide)
  cases s with
  | declare v t e =>
    have hassign : NoCall s!" {v.javaName} = " := noCall_of_head (by simp [ToString.toString])
    have he : Accounts (CallsOf lib (Stmt.declare v t e).mentions) (e.layout lib) :=
      (e.accounts_layout lib).callsOf_mono (by simp [mentions])
    exact .line (t.accounts_layout.append_code hassign he) hend
  | assign v e | ret e =>
    rw [layout, mentions]
    exact .line (((e.accounts_layout lib).callsOf_mono (List.subset_cons_self _ _)).code _) hend
  | put v key e =>
    rw [layout, mentions]
    have he := (e.accounts_layout lib).callsOf_mono (List.subset_cons_self (.stmt (.put v key e)) _)
    exact .line (((he.code _).literal _).code _) hclose
  | putAll v e | setAttribute v a e =>
    rw [layout, mentions]
    exact .line (((e.accounts_layout lib).callsOf_mono (List.subset_cons_self _ _)).code _) hclose
  | when e body =>
    have hparen : NoCall ")" := noCall_of_head (by decide)
    have he : Accounts (CallsOf lib (Stmt.when e body).mentions) (e.layout lib) :=
      (e.accounts_layout lib).callsOf_mono (by simp [mentions])
    have hbody : AllAccount (CallsOf lib (Stmt.when e body).mentions) (layoutAll lib body) :=
      (account_layoutAll lib body).callsOf_mono (by simp [mentions])
    exact .block (.code _ (he.append_code hparen .nil)) hbody
  | select e arms =>
    match arms with
    | [] => exact .blank
    | (value, body) :: rest =>
      have he : Accounts (CallsOf lib (Stmt.select e ((value, body) :: rest)).mentions)
          (e.layout lib) := (e.accounts_layout lib).callsOf_mono (by simp [mentions])
      have harms : mentionsAll body ++ armMentions rest ⊆
          (Stmt.select e ((value, body) :: rest)).mentions := by
        rw [mentions, armMentions]
        exact List.subset_cons_of_subset _ (List.subset_append_right _ _)
      obtain ⟨hbody, hrest⟩ := List.append_subset.mp harms
      have hopen : NoCall " \x7b" := noCall_of_head (by decide)
      exact (AllAccount.line (accounts_conditionLayout he value) hopen).append
        (((account_layoutAll lib body).callsOf_mono hbody).nested.append
          (.chain (account_layoutArms lib rest he hrest)))
theorem account_layoutAll (lib : Library) (stmts : List Stmt) :
    AllAccount (CallsOf lib (mentionsAll stmts)) (layoutAll lib stmts) := by
  match stmts with
  | [] => exact .nil
  | s :: rest =>
    rw [layoutAll, mentionsAll]
    exact ((account_layout lib s).callsOf_mono (List.subset_append_left _ _)).append
      ((account_layoutAll lib rest).callsOf_mono (List.subset_append_right _ _))
theorem account_layoutArms (lib : Library) {scrutinee : List Part} {ms : List Mention}
    (arms : List (String × List Stmt)) (h : Accounts (CallsOf lib ms) scrutinee)
    (hms : armMentions arms ⊆ ms) : ∀ b ∈ layoutArms lib scrutinee arms,
      Accounts (CallsOf lib ms) b.1 ∧ AllAccount (CallsOf lib ms) b.2 := by
  match arms with
  | [] => simp [layoutArms]
  | (value, body) :: rest =>
    rw [armMentions, List.append_subset] at hms
    rw [layoutArms, List.forall_mem_cons]
    have hbody := (account_layoutAll lib body).callsOf_mono hms.1
    exact ⟨⟨accounts_conditionLayout h value, hbody⟩, account_layoutArms lib rest h hms.2⟩
end

end Stmt

/-! ## Mappers -/

theorem Method.account_layout (lib : Library) (m : Method) :
    AllAccount (CallsOf lib (Stmt.mentionsAll m.body)) (m.layout lib) := by
  have hname : NoCall s!" {m.kind.methodName}(" := noCall_of_head (by simp [ToString.toString])
  have hclose : NoCall ")" := noCall_of_head (by decide)
  have hparams : ∀ parts ∈ m.params.map (paramLayout lib),
      Accounts (CallsOf lib (Stmt.mentionsAll m.body)) parts := by
    refine List.forall_mem_map.mpr fun p _ => ?_
    exact p.type.accounts_layout.append_code (noCall_of_head (by simp [ToString.toString])) .nil
  refine .block ?_ (Stmt.account_layoutAll lib m.body)
  simp only [List.append_assoc, List.cons_append]
  exact .code _ (m.returns.accounts_layout.append_code hname
    ((Java.Accounts.joined hparams).append_code hclose .nil))

theorem Constant.account_layout (lib : Library) (model : JavaType) (c : Constant) :
    AllAccount called [c.layout lib model] := by
  have hopen : NoCall "<" := noCall_of_head (by decide)
  have hclose : NoCall ">" := noCall_of_head (by decide)
  have hnew : NoCall s!" {c.name} = new " := noCall_of_head (by simp [ToString.toString])
  have hend : NoCall "();" := noCall_of_head (by decide)
  obtain ⟨declared, hlayout, hdeclared⟩ : ∃ declared, c.layout lib model = .ofParts
      (.code "private static final " :: declared ++ .code s!" {c.name} = new " ::
        c.type.layout ++ [.code "();"]) ∧ Accounts called declared := by
    refine ⟨_, rfl, ?_⟩
    cases c.role with
    | linksProvider =>
      simp only [List.append_assoc, List.cons_append]
      exact lib.linksProvider.accounts_layout.append_code hopen
        (model.accounts_layout.append_code hclose .nil)
    | serializer | deserializer | customDeserializer => exact c.type.accounts_layout
  rw [hlayout]
  exact .line (.append_code (hdeclared.code _) hnew c.type.accounts_layout) hend

namespace Mapper

/-- A method of the mapper calls a method of this name, or it adds links. -/
def Makes (lib : Library) (m : Mapper) (t : JavaType) (method : String) : Prop :=
  t = lib.linksMapper ∨ ∃ f ∈ m.methods, ∃ k, f.Calls t k ∧ k.methodName = method

theorem account_layout (lib : Library) (documented : Bool) (m : Mapper) :
    AllAccount (m.Makes lib) (m.layout lib documented) := by
  refine .append ?_ (.block (m.type.accounts_layout.code _) (.spaced ?_))
  · have hdot : NoCall "\x7d." := noCall_of_head (by decide)
    split
    · exact (AllAccount.line .nil (noCall_of_head (by decide))).append <|
        (AllAccount.line (m.model.accounts_layout.code _) hdot).append <|
        (AllAccount.line (m.representer.type.accounts_layout.code _) hdot).append <|
        AllAccount.line .nil (noCall_of_head (by decide))
    · exact .nil
  · refine List.forall_mem_append.mpr ⟨?_, List.forall_mem_map.mpr fun f hf => ?_⟩
    · split
      · simp
      · refine List.forall_mem_singleton.mpr ?_
        exact List.forall_mem_map.mpr fun c _ => c.account_layout lib m.model _ List.mem_cons_self
    · refine (f.account_layout lib).mono fun t k => Or.imp_right fun hcall => ?_
      exact ⟨f, hf, Method.calledIn_body_iff.mp hcall⟩

/-- What a mapper's file prints as a call of a method that mappers have is a call that one of its
methods makes, or the one of the library that adds links. -/
theorem makes_of_printsCall {lib : Library} {documented : Bool} {m : Mapper} {s : Sketch}
    (hs : s ∈ m.layout lib documented) {t : JavaType} {k : MethodKind}
    (h : PrintsCall s.parts t k.methodName) : m.Makes lib t k.methodName :=
  m.account_layout lib documented s hs t k h

end Mapper

end JsonMapping
