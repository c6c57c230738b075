import JsonMapping.Proofs.Derive.Faults
import JsonMapping.Proofs.Java.Layout
import JsonMapping.Proofs.Java.Lines
import JsonMapping.Proofs.Java.Plain
import JsonMapping.Proofs.Scope.Demands

/-! The string literals of source files. A scan of a mapper's class reads the keys and texts of its
methods in the order in which they are written, and finds all brackets matched. Names are plain and
texts are escaped, so no text can end its literal. The main statement is `class_scans`. -/

namespace JsonMapping

open Java (Piece Line Library TypeNames Reads ReadsLines Plain)

/-! ## Literals in order of print -/

namespace Expr

mutual
def literals : Expr → List String
  | .text s => [s]
  | .hasKey _ key | .lookup _ key | .subContainer _ key => [key]
  | .isNull e | .cast _ e | .apply _ e => literals e
  | .callMapper _ _ args => literalsAll args
  | .var _ | .null | .newContainer | .newModel _ | .emptyList | .getAttribute _ _
  | .isInstance _ _ | .links _ _ _ | .mapEach _ _ _ _ => []
def literalsAll : List Expr → List String
  | [] => []
  | e :: rest => literals e ++ literalsAll rest
end

end Expr

namespace Stmt

mutual
/-- A choice is written as a chain of conditions, each with the text of its arm and the scrutinee
once more. -/
def literals : Stmt → List String
  | .declare _ _ e | .assign _ e | .putAll _ e | .setAttribute _ _ e | .ret e => e.literals
  | .put _ key e => key :: e.literals
  | .when e body => e.literals ++ literalsAll body
  | .select e arms => armLiterals e.literals arms
def literalsAll : List Stmt → List String
  | [] => []
  | s :: rest => literals s ++ literalsAll rest
def armLiterals (scrutinee : List String) : List (String × List Stmt) → List String
  | [] => []
  | (value, body) :: rest =>
    value :: scrutinee ++ literalsAll body ++ armLiterals scrutinee rest
end

end Stmt

def Method.literals (m : Method) : List String := Stmt.literalsAll m.body

def Mapper.literals (m : Mapper) : List String := m.methods.flatMap Method.literals

/-! ## Expressions -/

/-- The name of a constant that is demanded is plain. -/
def Demand.Plain : Demand → Prop
  | .helper c | .links c => Java.Plain c.toList
  | .call _ _ _ => True

namespace Expr

theorem reads_mapEach (names : TypeNames) (v : Var) (t : JavaType) (k : MethodKind) {args : String}
    (hargs : Plain args.toList) :
    Reads ([Piece.code
        s!"{v.javaName}.stream().map(eachItem -> {names.write t}.{k.methodName}({args}))",
      .code s!".collect({names.write Java.collectors}.toList())"].flatMap Piece.chars) [] := by
  have hstream := Reads.nil.call (v.plain_member (by decide : Plain "stream".toList))
  have harrow : Plain "eachItem -> ".toList := by decide
  have hmethod := (Reads.plain hargs).call
    (harrow.append (names.plain_member t k.plain_methodName))
  have hmap := hmethod.call (by decide : Plain ".map".toList)
  have hlist := Reads.nil.call
    (names.plain_member Java.collectors (by decide : Plain "toList".toList))
  have hcollect := hlist.call (by decide : Plain ".collect".toList)
  simpa [Piece.chars, ToString.toString] using hstream.append (hmap.append hcollect)

mutual
theorem reads_java (names : TypeNames) (e : Expr) (h : ∀ d ∈ e.demands, d.Plain) :
    Reads ((e.java names).flatMap Piece.chars) e.literals := by
  cases e with
  | var v =>
    simpa [java, literals, Piece.chars] using Reads.plain v.plain_javaName
  | null =>
    simpa [java, literals, Piece.chars] using Reads.plain (by decide : Plain "null".toList)
  | text s =>
    simpa [java, literals] using Reads.literal s
  | newContainer =>
    have hcall := Reads.nil.call (names.plain_new Java.linkedHashMap)
    simpa [java, literals, Piece.chars, ToString.toString] using hcall
  | newModel t =>
    have hcall := Reads.nil.call (names.plain_new t)
    simpa [java, literals, Piece.chars, ToString.toString] using hcall
  | emptyList =>
    have hname : Plain "emptyList".toList := by decide
    have hcall := Reads.nil.call (names.plain_member Java.collections hname)
    simpa [java, literals, Piece.chars, ToString.toString] using hcall
  | getAttribute v a =>
    have hget : Plain "get".toList := by decide
    have hcall := Reads.nil.call (v.plain_member (hget.append a.name.plain_capitalized))
    simpa [java, literals, Piece.chars, ToString.toString] using hcall
  | hasKey v key =>
    have hname : Plain "containsKey".toList := by decide
    have hcall := (Reads.literal key).call (v.plain_member hname)
    simpa [java, literals, Piece.chars, ToString.toString] using hcall
  | lookup v key =>
    have hname : Plain "get".toList := by decide
    have hcall := (Reads.literal key).call (v.plain_member hname)
    simpa [java, literals, Piece.chars, ToString.toString] using hcall
  | subContainer v key =>
    have hmap := (Reads.plain (names.plain_write Java.map)).parens
    have hempty : Plain "emptyMap".toList := by decide
    have helse := Reads.nil.call (Plain.comma.append (names.plain_member Java.collections hempty))
    have hname : Plain "getOrDefault".toList := by decide
    have hdefault := Plain.space.append (v.plain_member hname)
    have hcall := ((Reads.literal key).append helse).call hdefault
    simpa [java, literals, Piece.chars, ToString.toString] using hmap.append hcall
  | isNull e =>
    have hnull : Plain " == null".toList := by decide
    simpa [java, literals, Piece.chars] using (reads_java names e h).append (.plain hnull)
  | isInstance v t =>
    have hname : Plain " instanceof ".toList := by decide
    have htest := v.plain_javaName.append (hname.append (names.plain_write t))
    simpa [java, literals, Piece.chars, ToString.toString] using Reads.plain htest
  | cast t e =>
    have hcast := (Reads.plain (t.plain_java names)).parens
    simpa [java, literals, Piece.chars, ToString.toString] using
      hcast.append ((Reads.plain .space).append (reads_java names e h))
  | apply c e =>
    obtain ⟨hc, he⟩ := List.forall_mem_cons.mp h
    have hname : Plain ".apply".toList := by decide
    have hcall := (reads_java names e he).call (.append hc hname)
    simpa [java, literals, Piece.chars, ToString.toString] using hcall
  | links c v context =>
    have hc : Plain c.toList := h _ List.mem_cons_self
    have hargs := hc.append (Plain.comma.append
      (v.plain_javaName.append (Plain.comma.append context.plain_javaName)))
    have hname : Plain "toJSON".toList := by decide
    have hcall := (Reads.plain hargs).call (names.plain_member names.library.linksMapper hname)
    simpa [java, literals, Piece.chars, ToString.toString] using hcall
  | callMapper t k args =>
    have hargs := reads_javaAll names args (List.forall_mem_cons.mp h).2
    have hcall := hargs.call (names.plain_member t k.plain_methodName)
    simpa [java, literals, Piece.chars, Java.chars_joined, ToString.toString] using hcall
  | mapEach v t k context =>
    cases context with
    | none =>
      have hargs : Plain "eachItem".toList := by decide
      simpa [java, literals, ToString.toString] using reads_mapEach names v t k hargs
    | some c =>
      have hfirst : Plain "eachItem, ".toList := by decide
      have hargs := hfirst.append c.plain_javaName
      rw [← String.toList_append] at hargs
      simpa [java, literals, ToString.toString] using reads_mapEach names v t k hargs
theorem reads_javaAll (names : TypeNames) (es : List Expr) (h : ∀ d ∈ argDemands es, d.Plain) :
    Reads (List.intercalate ", ".toList ((javaAll names es).map (List.flatMap Piece.chars)))
      (literalsAll es) := by
  match es with
  | [] => exact .nil
  | [e] =>
    obtain ⟨he, -⟩ := List.forall_mem_append.mp h
    simpa [javaAll, literalsAll] using reads_java names e he
  | e :: e' :: rest =>
    obtain ⟨he, hrest⟩ := List.forall_mem_append.mp h
    have hall := (reads_java names e he).append
      ((Reads.plain .comma).append (reads_javaAll names (e' :: rest) hrest))
    simpa [javaAll, literalsAll, List.intercalate_cons_cons] using hall
end

end Expr

/-! ## Statements -/

namespace Stmt

theorem reads_armCondition {scrutinee : List Piece} {literals : List String}
    (h : Reads (scrutinee.flatMap Piece.chars) literals) (value : String) :
    Reads ((armCondition scrutinee value).flatMap Piece.chars) (value :: literals) := by
  have hequals := h.call (by decide : Plain ".equals".toList)
  have hcondition := ((Reads.literal value).append hequals).call (by decide : Plain "if ".toList)
  simpa [armCondition, Piece.chars] using hcondition

/-- What stands before a value, the value, and what stands behind it. -/
theorem reads_around {before after : String} {value : List Piece} {literals : List String}
    (hbefore : Plain before.toList) (h : Reads (value.flatMap Piece.chars) literals)
    (hafter : Plain after.toList) :
    Reads ((Piece.code before :: value ++ [Piece.code after]).flatMap Piece.chars) literals := by
  simpa [Piece.chars] using (Reads.plain hbefore).append (h.append (.plain hafter))

mutual
theorem reads_java (names : TypeNames) (s : Stmt) (h : ∀ d ∈ s.demands, d.Plain) :
    ReadsLines (s.java names) s.literals := by
  cases s with
  | declare v t e =>
    have he := e.reads_java names h
    have hname : Plain (s!"{t.java names} {v.javaName} = ").toList := by
      simpa [ToString.toString] using
        (t.plain_java names).append (Plain.space.append (v.plain_javaName.append .equals))
    exact .ofPieces (reads_around hname he .semicolon)
  | assign v e =>
    have hname : Plain (s!"{v.javaName} = ").toList := by
      simpa [ToString.toString] using v.plain_javaName.append .equals
    exact .ofPieces (reads_around hname (e.reads_java names h) .semicolon)
  | put v key e =>
    have hname : Plain "put".toList := by decide
    have hargs := (Reads.literal key).append ((Reads.plain .comma).append (e.reads_java names h))
    have hcall := (hargs.call (v.plain_member hname)).append (.plain .semicolon)
    exact .ofPieces (by simpa [literals, Piece.chars, ToString.toString] using hcall)
  | putAll v e =>
    have hname : Plain "putAll".toList := by decide
    have hcall := ((e.reads_java names h).call (v.plain_member hname)).append (.plain .semicolon)
    exact .ofPieces (by simpa [literals, Piece.chars, ToString.toString] using hcall)
  | setAttribute v a e =>
    have hset : Plain "set".toList := by decide
    have hname := v.plain_member (hset.append a.name.plain_capitalized)
    have hcall := ((e.reads_java names h).call hname).append (.plain .semicolon)
    exact .ofPieces (by simpa [literals, Piece.chars, ToString.toString] using hcall)
  | when e body =>
    obtain ⟨he, hbody⟩ := List.forall_mem_append.mp h
    have hcondition := (e.reads_java names he).call (by decide : Plain "if ".toList)
    exact .block (by simpa [Piece.chars] using hcondition) (reads_javaAll names body hbody)
  | select e arms =>
    obtain ⟨he, harms⟩ := List.forall_mem_append.mp h
    match arms with
    | [] => exact .ofPieces .nil
    | (value, body) :: rest =>
      obtain ⟨hbody, hrest⟩ := List.forall_mem_append.mp harms
      have hscrutinee := e.reads_java names he
      have hchain := reads_javaArms names hscrutinee (reads_javaAll names body hbody).nested rest
        hrest
      simpa [java, literals, armLiterals] using
        ReadsLines.opened (reads_armCondition hscrutinee value) hchain
  | ret e =>
    have hreturn : Plain "return ".toList := by decide
    exact .ofPieces (reads_around hreturn (e.reads_java names h) .semicolon)
theorem reads_javaAll (names : TypeNames) (stmts : List Stmt)
    (h : ∀ d ∈ demandsAll stmts, d.Plain) :
    ReadsLines (javaAll names stmts) (literalsAll stmts) := by
  match stmts with
  | [] => exact .nil
  | s :: rest =>
    obtain ⟨hs, hrest⟩ := List.forall_mem_append.mp h
    exact (reads_java names s hs).append (reads_javaAll names rest hrest)
/-- The arms behind the lines of the first one. -/
theorem reads_javaArms (names : TypeNames) {scrutinee : List Piece} {tested : List String}
    (hscrutinee : Reads (scrutinee.flatMap Piece.chars) tested) {ls : List Line}
    {literals : List String} (hls : ReadsLines ls literals) (arms : List (String × List Stmt))
    (h : ∀ d ∈ armDemands arms, d.Plain) :
    ReadsLines (.code "\x7b" :: (ls ++ Line.chain (javaArms names scrutinee arms)))
      (literals ++ armLiterals tested arms) := by
  match arms with
  | [] => simpa [armLiterals, javaArms, Line.chain] using hls.closed
  | (value, body) :: rest =>
    obtain ⟨hbody, hrest⟩ := List.forall_mem_append.mp h
    have hchain := reads_javaArms names hscrutinee (reads_javaAll names body hbody).nested rest
      hrest
    simpa [armLiterals, javaArms, Line.chain] using
      hls.chained (reads_armCondition hscrutinee value) hchain
end

end Stmt

/-! ## Classes -/

theorem Method.reads_java (names : TypeNames) (m : Method) (h : ∀ d ∈ m.demands, d.Plain) :
    ReadsLines (m.java names) m.literals := by
  change ReadsLines (Line.block _ _) ([] ++ Stmt.literalsAll m.body)
  refine .block ?_ (Stmt.reads_javaAll names m.body h)
  have hstatic : Plain "public static ".toList := by decide
  have hname := hstatic.append ((m.returns.plain_java names).append
    (Plain.space.append m.kind.plain_methodName))
  have hheader := (Reads.plain (m.plain_params names)).call hname
  simpa [Piece.chars, ToString.toString] using hheader

theorem Constant.reads_java (names : TypeNames) (model : JavaType) {c : Constant}
    (h : Plain c.name.toList) : ReadsLines [c.java names model] [] := by
  have hdeclared : ∀ declared : String, Plain declared.toList → ReadsLines
      [.code s!"private static final {declared} {c.name} = new {names.write c.type}();"] [] := by
    intro declared hdeclared
    have hstatic : Plain "private static final ".toList := by decide
    have hnew := Plain.equals.append (names.plain_new c.type)
    have hname := hstatic.append (hdeclared.append (Plain.space.append (h.append hnew)))
    have hcall := (Reads.nil.call hname).append (.plain .semicolon)
    exact .ofPieces (by simpa [Piece.chars, ToString.toString] using hcall)
  unfold java
  cases c.role with
  | linksProvider =>
    refine hdeclared _ ?_
    have hopen : Plain "<".toList := by decide
    have hclose : Plain ">".toList := by decide
    simpa [ToString.toString] using (names.plain_write names.library.linksProvider).append
      (hopen.append ((names.plain_write model).append hclose))
  | serializer | deserializer | customDeserializer => exact hdeclared _ (names.plain_write c.type)

namespace Mapper

theorem reads_javaMembers (names : TypeNames) {m : Mapper}
    (hconstants : ∀ c ∈ m.constants, Plain c.name.toList)
    (hmethods : ∀ method ∈ m.methods, ∀ d ∈ method.demands, d.Plain) :
    List.Forall₂ ReadsLines (m.javaMembers names)
      ((if m.constants.isEmpty then [] else [[]]) ++ m.methods.map Method.literals) := by
  refine List.rel_append ?_ ?_
  · split
    · exact .nil
    · refine .cons ?_ .nil
      generalize m.constants = constants at hconstants
      induction constants with
      | nil => exact .nil
      | cons c rest ih =>
        obtain ⟨hc, hrest⟩ := List.forall_mem_cons.mp hconstants
        exact (c.reads_java names m.model hc).append (ih hrest)
  · rw [List.forall₂_map_left_iff, List.forall₂_map_right_iff, List.forall₂_same]
    exact fun method hmem => method.reads_java names (hmethods method hmem)

theorem reads_javaClass (names : TypeNames) {m : Mapper}
    (hconstants : ∀ c ∈ m.constants, Plain c.name.toList)
    (hmethods : ∀ method ∈ m.methods, ∀ d ∈ method.demands, d.Plain) :
    ReadsLines (m.javaClass names) m.literals := by
  have hclass : Plain "public class ".toList := by decide
  have hheader : Reads ([Piece.code s!"public class {names.write m.type}"].flatMap Piece.chars)
      [] := by
    simpa [Piece.chars, ToString.toString] using
      Reads.plain (hclass.append (names.plain_write m.type))
  have hblock := ReadsLines.block hheader (.spaced (reads_javaMembers names hconstants hmethods))
  have hliterals : ((if m.constants.isEmpty then [] else [[]]) ++
      m.methods.map Method.literals).flatten = m.literals := by
    split <;> simp [literals, List.flatMap_def]
  rw [hliterals] at hblock
  exact hblock

/-- What stands above the class, which may be nothing. -/
def headText (names : TypeNames) (settings : JavaSettings) (m : Mapper) : String :=
  if m.javaHead names settings = [] then ""
  else Line.textOf (Java.indentWidth settings) (m.javaHead names settings)

/-- The class, from its header on. -/
def classText (names : TypeNames) (settings : JavaSettings) (m : Mapper) : String :=
  Line.textOf (Java.indentWidth settings) (m.javaClass names)

theorem textOf_javaLines (names : TypeNames) (settings : JavaSettings) (m : Mapper) :
    Line.textOf (Java.indentWidth settings) (m.javaLines names settings) =
      m.headText names settings ++ m.classText names settings := by
  unfold headText classText javaLines
  split
  · rename_i hhead
    rw [hhead, List.nil_append, String.empty_append]
  · rename_i hhead
    exact Java.textOf_append _ hhead (by simp [javaClass, Line.block])

/-- The header of the class is a line of its own. -/
theorem exists_classText_eq (names : TypeNames) (settings : JavaSettings) (m : Mapper) :
    ∃ body, m.classText names settings =
      s!"public class {names.write m.type} \x7b\n" ++ body := by
  obtain ⟨header, rest, hlines, hne, hheader⟩ : ∃ header rest, m.javaClass names = header :: rest ∧
      rest ≠ [] ∧ header.chars (Java.indentWidth settings) =
        ("public class ".toList ++ (names.write m.type).toList ++ [' ']) ++ ['\x7b'] := by
    refine ⟨_, _, rfl, by simp, ?_⟩
    simp [Line.chars, Line.ofPieces, Piece.chars, ToString.toString]
  have hbreak : '\n' ∉ header.chars (Java.indentWidth settings) := by
    have hname := names.newline_not_mem_write m.type
    simp [hheader, hname]
  have htrim : Text.trimEnd (header.chars (Java.indentWidth settings)) =
      header.chars (Java.indentWidth settings) := by
    rw [hheader, Text.trimEnd, List.reverse_append, List.reverse_singleton, List.singleton_append,
      List.dropWhile_cons_of_neg (by decide), ← List.singleton_append, List.reverse_append]
    simp
  refine ⟨Line.textOf (Java.indentWidth settings) rest, ?_⟩
  have htext := Java.toList_textOf_cons (Java.indentWidth settings) hne hbreak
  rw [← String.toList_inj, classText, hlines, htext, htrim, hheader]
  simp [ToString.toString]

end Mapper

/-! ## Derived mappers -/

namespace Derive

theorem plain_of_mem_demands {p : Plan} {m : Method} (hm : m ∈ methods p) :
    ∀ d ∈ m.demands, d.Plain := by
  intro d hd
  obtain ⟨k, hskip, rfl⟩ := Plan.mem_methods_iff.mp hm
  have hasks := asks_of_mem_demands hskip hd
  cases d with
  | helper c | links c =>
    obtain ⟨use, -, rfl⟩ := hasks
    exact plain_constantName p.helperUses use.1
  | call t k context => trivial

end Derive

theorem Mapper.reads_classText {reg : Registry} {g : GeneratorSettings} {d : Descriptor}
    {m : Mapper} (hm : reg.derive g d = .ok m) (names : TypeNames) (settings : JavaSettings) :
    Reads (m.classText names settings).toList m.literals := by
  obtain ⟨rfl, -⟩ := Derive.derive_ok hm
  have hmethods : ∀ method ∈ (Derive.planned reg g d).toMapper.methods, ∀ x ∈ method.demands,
      x.Plain := fun _ => Derive.plain_of_mem_demands
  have hlines := reads_javaClass names (Derive.plain_constantsFor _) hmethods
  exact hlines.textOf (by simp [javaClass, Line.block]) _

/-- The file of a derived mapper is what stands above the class, and the class. A scan of the class,
from its header to the end of the file, reads the texts of the methods as the literals, in order of
print, and finds all brackets matched that stand outside them. No line ends within a literal. All
this holds whatever the texts are. -/
theorem class_scans {reg : Registry} {g : GeneratorSettings} {d : Descriptor} {m : Mapper}
    (hm : reg.derive g d = .ok m) {settings : JavaSettings} {source : String}
    (hsource : m.javaSource settings = .ok source) :
    ∃ library, Library.ofPackage settings.runtimePackage = .ok library ∧
      let names := TypeNames.ofMapper library settings.javadoc m
      let text := m.classText names settings
      source = m.headText names settings ++ text ∧
        (∃ body, text = s!"public class {names.write m.type} \x7b\n" ++ body) ∧
        Java.scan text = some m.literals ∧
        ∀ before after, text.toList = before ++ '\n' :: after → ∃ awaited read,
          (Java.Scan.inCode [] []).run before = some (.inCode awaited read) := by
  obtain ⟨library, hlibrary, hsource⟩ := bind_eq_ok.mp hsource
  refine ⟨library, hlibrary, ?_⟩
  intro names text
  have hreads := Mapper.reads_classText hm names settings
  refine ⟨?_, m.exists_classText_eq names settings, Reads.scan_eq hreads, ?_⟩
  · rw [← m.textOf_javaLines]
    exact (Except.ok.inj hsource).symm
  · intro before after htext
    have hrun := hreads [] []
    rw [htext] at hrun
    exact Java.Scan.exists_inCode_of_run hrun

namespace Sample

/-- A team whose texts are code, the Unicode escape of a quote, and a backslash before a line
break. -/
def guild : Descriptor :=
  { team with dispatch := some {
      discriminator := "\"); \x7d //"
      nestedAttribute := some "\\u0022"
      variants := [⟨"\\\n", userId⟩] } }

def guilds : Registry where
  registrations := [⟨guild, false⟩, ⟨user, false⟩]
  additions := [(guild.representer, lead)]
  distinct := by decide

def guildMapper : Mapper := (Derive.planned guilds {} guild).toMapper

theorem class_scans_guild : guilds.derive {} guild = .ok guildMapper ∧
    guildMapper.literals = ["lead", "\"); \x7d //", "\\\n", "\\u0022", "\\\n", "\"); \x7d //",
      "\\u0022", "lead", "lead"] ∧
    ∃ source head text, guildMapper.javaSource {} = .ok source ∧ source = head ++ text ∧
      Java.scan text = some guildMapper.literals := by
  have hm : guilds.derive {} guild = .ok guildMapper := rfl
  obtain ⟨source, hsource⟩ : ∃ source, guildMapper.javaSource {} = .ok source := ⟨_, rfl⟩
  obtain ⟨library, -, htext, -, hscan, -⟩ := class_scans hm hsource
  exact ⟨hm, rfl, source, _, _, hsource, htext, hscan⟩

end Sample

end JsonMapping
