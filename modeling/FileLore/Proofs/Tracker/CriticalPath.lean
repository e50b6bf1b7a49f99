import FileLore.Proofs.Pattern.Texts
import FileLore.Tracker.CriticalPath

/-!
# Critical paths told without patterns

A path is critical if one of a few directories or beginnings of names occurs behind
a slash in it, or if it ends in the name of one of a few files
(`isCriticalPath_iff`). What stands in front of either makes no difference, line
feeds and all, so a critical path stays critical behind any other path.
-/

namespace FileLore

open Pattern

variable {body : Pattern} {source : List Char} {words : List String}

/-- What makes a path critical wherever it occurs in it. -/
def criticalParts : List String :=
  ["/api/", "/routes/", "/route/", "/models/", "/model/", "/schema/", "/config", "/settings"]

/-- What makes a path critical that ends in it. -/
def criticalEndings : List String :=
  ["package.json", "requirements.txt", "go.mod", "Dockerfile", "docker-compose.yaml",
    "docker-compose.yml"]

/-! ## The two kinds of patterns -/

theorem occursIn_afterSlash (h : body.ReadsJust (words.map String.toList)) :
    (afterSlash body).OccursIn source ↔ ∃ word ∈ words, '/' :: word.toList <:+: source := by
  have hbody : (sequence [body]).ReadsJust (words.map String.toList) := h
  have hslash := (readsJust_literal "/").cons hbody
  refine hslash.occursIn_many_cons.trans ?_
  simp

theorem occursIn_atPathEnd (h : body.ReadsJust (words.map String.toList)) :
    (atPathEnd body).OccursIn source ↔ ∃ word ∈ words, word.toList <:+ source := by
  refine h.occursIn_atEnd.trans ?_
  simp

/-! ## Their texts -/

theorem readsJust_apiOrRoutes :
    (sequence [either (literal "api") (seq (literal "route") (optional (literal "s"))),
      literal "/"]).ReadsJust (["api/", "routes/", "route/"].map String.toList) := by
  have hs : (sequence [optional (literal "s")]).ReadsJust _ := (readsJust_literal "s").optional
  have hroutes : (seq (literal "route") (optional (literal "s"))).ReadsJust _ :=
    (readsJust_literal "route").cons hs
  have hend : (sequence [literal "/"]).ReadsJust _ := readsJust_literal "/"
  exact ((readsJust_literal "api").either hroutes).cons hend

theorem readsJust_models :
    (sequence [literal "model", optional (literal "s"), literal "/"]).ReadsJust
      (["models/", "model/"].map String.toList) := by
  have hend : (sequence [literal "/"]).ReadsJust _ := readsJust_literal "/"
  exact (readsJust_literal "model").cons ((readsJust_literal "s").optional.cons hend)

theorem readsJust_compose :
    (sequence [literal "docker-compose.y", optional (literal "a"), literal "ml"]).ReadsJust
      (["docker-compose.yaml", "docker-compose.yml"].map String.toList) := by
  have hend : (sequence [literal "ml"]).ReadsJust _ := readsJust_literal "ml"
  exact (readsJust_literal "docker-compose.y").cons ((readsJust_literal "a").optional.cons hend)

theorem readsJust_word (word : String) : (literal word).ReadsJust ([word].map String.toList) :=
  readsJust_literal word

/-! ## Critical paths -/

/-- The patterns occur where one of their texts does. -/
theorem occursIn_criticalPatterns_iff :
    (∃ pattern ∈ criticalPatterns, pattern.OccursIn source) ↔
      (∃ part ∈ criticalParts, part.toList <:+: source) ∨
        ∃ ending ∈ criticalEndings, ending.toList <:+ source := by
  have hconfig : (either (literal "config") (literal "settings")).ReadsJust
      (["config", "settings"].map String.toList) :=
    (readsJust_word "config").either (readsJust_word "settings")
  simp only [criticalPatterns, criticalParts, criticalEndings, List.mem_cons, List.not_mem_nil,
    or_false, exists_eq_or_imp, exists_eq_left, or_assoc,
    occursIn_afterSlash readsJust_apiOrRoutes, occursIn_afterSlash readsJust_models,
    occursIn_afterSlash (readsJust_word _), occursIn_afterSlash hconfig,
    occursIn_atPathEnd (readsJust_word _), occursIn_atPathEnd readsJust_compose]
  -- A slash in front of a word is left to be taken into it.
  rfl

theorem isCriticalPath_iff_occursIn {path : String} : isCriticalPath path = true ↔
    ∃ pattern ∈ criticalPatterns, pattern.OccursIn path.toList := by
  have hgroups : ∀ pattern ∈ criticalPatterns, pattern.roundsHoldNoGroup = true := by
    decide +kernel
  rw [isCriticalPath, List.any_eq_true]
  exact exists_congr fun pattern => and_congr_right fun h => isFoundIn_iff (hgroups pattern h)

/-- **Critical paths.** A path is critical, that is, some pattern can be read somewhere in it, just if
one of the parts occurs in it or it ends in one of the endings. Hence it stays critical with
anything in front of it. -/
theorem isCriticalPath_iff (path : String) :
    (isCriticalPath path = true ↔ ∃ pattern ∈ criticalPatterns, pattern.OccursIn path.toList) ∧
    (isCriticalPath path = true ↔
      (∃ part ∈ criticalParts, part.toList <:+: path.toList) ∨
        ∃ ending ∈ criticalEndings, ending.toList <:+ path.toList) ∧
    ∀ before : String, isCriticalPath path = true → isCriticalPath (before ++ path) = true := by
  have hplain (path : String) : isCriticalPath path = true ↔
      (∃ part ∈ criticalParts, part.toList <:+: path.toList) ∨
        ∃ ending ∈ criticalEndings, ending.toList <:+ path.toList :=
    isCriticalPath_iff_occursIn.trans occursIn_criticalPatterns_iff
  refine ⟨isCriticalPath_iff_occursIn, hplain path, fun before h => ?_⟩
  have hbehind : path.toList <:+ (before ++ path).toList := by
    rw [String.toList_append]
    exact List.suffix_append _ _
  rw [hplain] at h ⊢
  rcases h with ⟨part, hpart, hinfix⟩ | ⟨ending, hending, hsuffix⟩
  · exact .inl ⟨part, hpart, hinfix.trans hbehind.isInfix⟩
  · exact .inr ⟨ending, hending, hsuffix.trans hbehind⟩

theorem isCriticalPath_behindLineFeed :
    isCriticalPath "/config" = true ∧ isCriticalPath ("a\nb" ++ "/config") = true :=
  ⟨by decide +kernel, (isCriticalPath_iff "/config").2.2 "a\nb" (by decide +kernel)⟩

end FileLore
