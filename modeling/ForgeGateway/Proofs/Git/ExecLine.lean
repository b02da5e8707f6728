import ForgeGateway.Proofs.Git.Grammar
import ForgeGateway.Proofs.Text.Blank

/-! # The grammar of exec lines

An exec line is the name of a service and an argument, with white space around them; the
argument is a repository name, perhaps with a slash in front and perhaps in single quotes.
`Layout` is everything that a line may have besides the service and the name.
`exec_line_grammar` is the main theorem: exactly the lines of a layout are accepted, and what
the layout is makes no difference. -/

namespace ForgeGateway.Git

open ForgeGateway.Text

/-- A name as it stands in the line, with what may stand around it. -/
def wrapped (quoted slash : Bool) (name : List Char) : List Char :=
  let slashed := if slash then '/' :: name else name
  if quoted then '\'' :: slashed ++ ['\''] else slashed

/-- How a line is laid out around its service and its repository name. -/
structure Layout where
  before : List Char
  gap : List Char
  after : List Char
  quoted : Bool
  slash : Bool
  before_blank : Blanks before
  gap_blank : Blanks gap
  gap_ne : gap ≠ []
  after_blank : Blanks after

def Layout.line (l : Layout) (service : Service) (name : List Char) : String :=
  String.ofList
    (l.before ++ (service.name.toList ++ l.gap ++ wrapped l.quoted l.slash name) ++ l.after)

section
variable {host : List Char} {segments : List (List Char)}

/-! ### The argument -/

theorem wrapped_eq (quoted slash : Bool) (name : List Char) :
    wrapped quoted slash name = wrapped quoted false (wrapped false slash name) := rfl

theorem NameSyntax.head (h : NameSyntax host segments) :
    ∃ c rest, fullName host segments = c :: rest ∧ c ≠ '\'' ∧ c ≠ '/' := by
  obtain ⟨c, rest, rfl⟩ := List.exists_cons_of_ne_nil h.domain.ne_nil
  refine ⟨c, rest ++ '/' :: join '/' segments, rfl, ?_, ?_⟩
  · rintro rfl
    rcases h.domain.chars _ List.mem_cons_self with hc | hc | hc <;> exact absurd hc (by decide)
  · rintro rfl
    exact h.domain.not_slash List.mem_cons_self

theorem unquote_wrapped (slash : Bool) {c : Char} (rest : List Char) (hc : c ≠ '\'')
    (quoted : Bool) :
    unquote (wrapped quoted slash (c :: rest)) = .ok (wrapped false slash (c :: rest)) := by
  cases quoted with
  | true => simp [wrapped, unquote]
  | false =>
      cases slash with
      | true => rfl
      | false => simp [wrapped, unquote, hc]

theorem dropSlash_wrapped (slash : Bool) {c : Char} (rest : List Char) (hc : c ≠ '/') :
    dropSlash (wrapped false slash (c :: rest)) = c :: rest := by
  cases slash with
  | true => rfl
  | false => simp [wrapped, dropSlash, hc]

/-- What stands around a name makes no difference. -/
theorem Target.parse_wrapped (h : NameSyntax host segments) (quoted slash : Bool) :
    Target.parse (wrapped quoted slash (fullName host segments)) =
      .ok ⟨lowered (String.ofList host), String.ofList (join '/' segments)⟩ := by
  obtain ⟨c, rest, name, quote, start⟩ := h.head
  have plain := Target.ofPath_eq_ok.2 ⟨host, segments, h, rfl, rfl⟩
  rw [name] at plain ⊢
  rw [Target.parse, unquote_wrapped slash rest quote]
  show Target.ofPath (dropSlash (wrapped false slash (c :: rest))) = _
  rw [dropSlash_wrapped slash rest start, plain]

/-- An argument is what is left without quotes, perhaps in quotes. -/
theorem eq_wrapped_of_unquote {arg inner : List Char} (h : unquote arg = .ok inner) :
    ∃ quoted, arg = wrapped quoted false inner := by
  unfold unquote at h
  split at h
  next body =>
    split at h
    next last =>
      cases h
      refine ⟨true, ?_⟩
      have ne : body ≠ [] := by rintro rfl; cases last
      rw [List.getLast?_eq_some_getLast ne, Option.some_inj] at last
      have := List.dropLast_concat_getLast ne
      rw [last] at this
      simp [wrapped, this]
    next => cases h
  next =>
    cases h
    exact ⟨false, rfl⟩

theorem eq_wrapped_dropSlash (cs : List Char) :
    ∃ slash, cs = wrapped false slash (dropSlash cs) := by
  unfold dropSlash
  split
  next rest => exact ⟨true, rfl⟩
  next => exact ⟨false, rfl⟩

theorem Target.exists_wrapped {arg : List Char} {t : Target} (h : Target.parse arg = .ok t) :
    ∃ quoted slash name, arg = wrapped quoted slash name ∧ Target.ofPath name = .ok t := by
  unfold Target.parse at h
  split at h
  next => cases h
  next inner hi =>
    obtain ⟨quoted, rfl⟩ := eq_wrapped_of_unquote hi
    obtain ⟨slash, hs⟩ := eq_wrapped_dropSlash inner
    refine ⟨quoted, slash, dropSlash inner, ?_, h⟩
    rw [wrapped_eq quoted slash, ← hs]

/-! ### The line -/

theorem Service.isBlank_name (service : Service) :
    ∀ c ∈ service.name.toList, isBlank c = false := by
  have all : service.name.toList.all (fun c => !isBlank c) = true := by cases service <;> decide
  intro c hc
  simpa using List.all_eq_true.1 all c hc

theorem Service.eq_of_ofName? {name : String} {service : Service}
    (h : Service.ofName? name = some service) : name = service.name := by
  unfold Service.ofName? at h
  split at h
  next hn => cases h; exact hn
  split at h
  next hn => cases h; exact hn
  next => cases h

theorem isBlank_of_isPathChar {c : Char} (h : Git.isPathChar c = true) : isBlank c = false := by
  rw [isPathChar_iff] at h
  rcases h with (h | rfl | rfl | rfl) | rfl
  · rw [isAlphanum_iff] at h
    rw [← Bool.not_eq_true]
    intro blank
    simp only [isBlank, Bool.or_eq_true, Bool.and_eq_true, decide_eq_true_eq, beq_iff_eq] at blank
    omega
  all_goals rfl

theorem NameSyntax.isBlank_wrapped (h : NameSyntax host segments) (quoted slash : Bool) :
    ∀ c ∈ wrapped quoted slash (fullName host segments), isBlank c = false := by
  have inside : ∀ c ∈ fullName host segments, isBlank c = false :=
    fun c hc => isBlank_of_isPathChar (h.isPathChar c hc)
  have slashed : ∀ c ∈ wrapped false slash (fullName host segments), isBlank c = false := by
    cases slash with
    | true => exact List.forall_mem_cons.2 ⟨rfl, inside⟩
    | false => exact inside
  rw [wrapped_eq]
  cases quoted with
  | true =>
      intro c hc
      rcases List.mem_append.1 hc with hc | hc
      · rcases List.mem_cons.1 hc with rfl | hc
        · rfl
        · exact slashed c hc
      · rw [List.mem_singleton.1 hc]
        rfl
  | false => exact slashed

theorem wrapped_ne_nil {name : List Char} (h : name ≠ []) (quoted slash : Bool) :
    wrapped quoted slash name ≠ [] := by
  cases quoted <;> cases slash <;> simp [wrapped, h]

/-- A line is accepted exactly if its first word names a service and the rest is read. -/
theorem ExecLine.parse_eq_ok_iff {raw : String} {e : ExecLine} : ExecLine.parse raw = .ok e ↔
    ∃ rest, cut (trim raw.toList) = (e.service.name.toList, rest) ∧
      Target.parse (trim (rest.getD [])) = .ok e.target := by
  constructor
  · intro h
    simp only [ExecLine.parse] at h
    split at h
    next => cases h
    next service hs =>
    split at h
    next => cases h
    next target ht =>
    cases h
    refine ⟨(cut (trim raw.toList)).2, ?_, ht⟩
    have word := Service.eq_of_ofName? hs
    rw [← word, String.toList_ofList]
  · rintro ⟨rest, parts, argument⟩
    simp only [ExecLine.parse, parts, String.ofList_toList, Service.ofName?_name, argument]

theorem ExecLine.parse_line (l : Layout) (service : Service) (h : NameSyntax host segments) :
    ExecLine.parse (l.line service (fullName host segments)) =
      .ok ⟨service, lowered (String.ofList host), String.ofList (join '/' segments)⟩ := by
  have solid := h.isBlank_wrapped l.quoted l.slash
  have argument_ne : wrapped l.quoted l.slash (fullName host segments) ≠ [] :=
    wrapped_ne_nil (by simp [fullName]) _ _
  have name_ne : service.name.toList ≠ [] := by cases service <;> decide
  obtain ⟨b, gap, hgap⟩ := List.exists_cons_of_ne_nil l.gap_ne
  have blanks : isBlank b = true ∧ Blanks gap := by
    have := l.gap_blank
    rw [hgap] at this
    exact List.forall_mem_cons.1 this
  rw [ExecLine.parse_eq_ok_iff]
  refine ⟨some (gap ++ wrapped l.quoted l.slash (fullName host segments)), ?_, ?_⟩
  · have ends := tight_append l.gap name_ne argument_ne service.isBlank_name solid
    rw [Layout.line, String.toList_ofList, trim_append l.before_blank ends l.after_blank, hgap,
      List.append_assoc]
    exact cut_append service.isBlank_name blanks.1
  · have trimmed := trim_append (r := []) blanks.2 (.of_solid solid) (by simp [Blanks])
    rw [List.append_nil] at trimmed
    rw [Option.getD_some, trimmed, Target.parse_wrapped h]

theorem ExecLine.exists_layout {raw : String} {e : ExecLine} (h : ExecLine.parse raw = .ok e) :
    ∃ (l : Layout) (host : List Char) (segments : List (List Char)), NameSyntax host segments ∧
      raw = l.line e.service (fullName host segments) ∧
      e.target = ⟨lowered (String.ofList host), String.ofList (join '/' segments)⟩ := by
  obtain ⟨rest, parts, read⟩ := ExecLine.parse_eq_ok_iff.1 h
  obtain ⟨quoted, slash, name, argument, read⟩ := Target.exists_wrapped read
  obtain ⟨host, segments, name_ok, rfl, target⟩ := Target.ofPath_eq_ok.1 read
  have argument_ne : wrapped quoted slash (fullName host segments) ≠ [] :=
    wrapped_ne_nil (by simp [fullName]) _ _
  cases rest with
  -- A line of one word has no argument, and nothing is no name.
  | none => exact absurd argument.symm argument_ne
  | some rest =>
      obtain ⟨b, hb, line⟩ := eq_of_cut parts
      obtain ⟨before, after, before_blank, after_blank, hraw⟩ := trim_spec raw.toList
      obtain ⟨gap, back, gap_blank, back_blank, hrest⟩ := trim_spec rest
      rw [Option.getD_some] at argument
      rw [argument] at hrest
      rw [line, hrest] at hraw
      -- Behind the argument stand the blanks that both trims have dropped.
      refine ⟨⟨before, b :: gap, back ++ after, quoted, slash, before_blank,
        List.forall_mem_cons.2 ⟨hb, gap_blank⟩, by simp, back_blank.append after_blank⟩,
        host, segments, name_ok, ?_, target⟩
      rw [← String.ofList_toList (s := raw), hraw, Layout.line]
      simp

end

/-! ### The main theorem -/

/-- The line that is written for what has been read. -/
def ExecLine.canonical (e : ExecLine) : String :=
  e.service.name ++ " '" ++ e.target.repository ++ "'"

/-- One blank between the words, and quotes around the name. -/
def Layout.plain : Layout where
  before := []
  gap := [' ']
  after := []
  quoted := true
  slash := false
  before_blank := by simp [Blanks]
  gap_blank := by simp [Blanks, isBlank]
  gap_ne := by simp
  after_blank := by simp [Blanks]

theorem ExecLine.canonical_eq (service : Service) (host : List Char)
    (segments : List (List Char)) :
    ExecLine.canonical ⟨service, String.ofList host, String.ofList (join '/' segments)⟩ =
      Layout.plain.line service (fullName host segments) := by
  rw [← String.toList_inj]
  simp [ExecLine.canonical, Target.repository, Layout.line, Layout.plain, wrapped, fullName]

/-- The grammar of exec lines.  A line is accepted exactly if it is a service and a repository
name in some layout; the result is the service, the host name in small letters, and the path as
it stands.  So neither the layout nor capitals in the host name make a difference, and the line
that is written for a result gives the result back. -/
theorem exec_line_grammar :
    (∀ (raw : String) (e : ExecLine), ExecLine.parse raw = .ok e ↔
      ∃ (l : Layout) (host : List Char) (segments : List (List Char)),
        NameSyntax host segments ∧ raw = l.line e.service (fullName host segments) ∧
        e.target.host.toList = host.map Char.toLower ∧
        e.target.path.toList = join '/' segments) ∧
    (∀ (l l' : Layout) (service : Service) (host host' : List Char) (segments : List (List Char)),
      NameSyntax host segments → host'.map Char.toLower = host.map Char.toLower →
      ExecLine.parse (l'.line service (fullName host' segments)) =
        ExecLine.parse (l.line service (fullName host segments))) ∧
    (∀ (raw : String) (e : ExecLine), ExecLine.parse raw = .ok e →
      ExecLine.parse e.canonical = .ok e) := by
  refine ⟨?grammar, ?layout, ?canonical⟩
  case grammar =>
    intro raw e
    constructor
    · intro h
      obtain ⟨l, host, segments, name, line, target⟩ := ExecLine.exists_layout h
      refine ⟨l, host, segments, name, line, ?_, ?_⟩
      · simp [target, lowered]
      · simp [target]
    · rintro ⟨l, host, segments, name, rfl, hhost, hpath⟩
      rw [ExecLine.parse_line l e.service name]
      obtain ⟨service, ⟨h, p⟩⟩ := e
      simp only at hhost hpath
      simp [lowered, ← hhost, ← hpath]
  case layout =>
    intro l l' service host host' segments name same
    rw [ExecLine.parse_line l service name,
      ExecLine.parse_line l' service (name.of_map_toLower same)]
    simp [lowered, same]
  case canonical =>
    rintro raw ⟨service, target⟩ h
    obtain ⟨l, host, segments, name, -, rfl⟩ := ExecLine.exists_layout h
    have small : (host.map Char.toLower).map Char.toLower = host.map Char.toLower := by
      rw [List.map_map]
      exact List.map_congr_left fun c _ => toLower_toLower c
    have written := ExecLine.canonical_eq service (host.map Char.toLower) segments
    simp only [lowered, String.toList_ofList]
    rw [written, ExecLine.parse_line _ _ (name.of_map_toLower small)]
    simp only [lowered, String.toList_ofList, small]

/-- A layout with white space on all sides, without quotes, and with a slash. -/
def Layout.sample : Layout where
  before := [' ', ' ']
  gap := ['\t']
  after := ['\n']
  quoted := false
  slash := true
  before_blank := by simp [Blanks, isBlank]
  gap_blank := by simp [Blanks, isBlank]
  gap_ne := by simp
  after_blank := by simp [Blanks, isBlank]

theorem sample_nameSyntax :
    NameSyntax "GitHub.com".toList ["acme".toList, ".github.git".toList] := by
  refine ⟨?_, ?_, ?_, ?_⟩
  · rw [← isDomainName_iff]
    decide
  · have chars : "acme/.github.git".toList.all isPathChar = true := by decide
    have pieces : split '/' "acme/.github.git".toList = ["acme".toList, ".github.git".toList] := by
      decide
    intro s hs
    refine segmentSyntax_of_mem_split (List.all_eq_true.1 chars) (pieces ▸ hs) ?_ ?_
    · rintro rfl
      exact absurd hs (by decide)
    · intro hyphen
      rw [List.mem_cons, List.mem_singleton] at hs
      rcases hs with rfl | rfl <;> exact absurd hyphen (by decide)
  · rw [← occursIn_iff]
    decide
  · exact ⟨["acme".toList], ".github".toList, by decide, by decide⟩

/-- The theorem on a line, on a differently written one, and on the line that is written for
what they give. -/
theorem exec_line_grammar_sample :
    ExecLine.parse "  git-upload-pack\t/GitHub.com/acme/.github.git\n" =
      .ok ⟨.uploadPack, "github.com", "acme/.github.git"⟩ ∧
    ExecLine.parse "git-upload-pack 'github.COM/acme/.github.git'" =
      ExecLine.parse "  git-upload-pack\t/GitHub.com/acme/.github.git\n" ∧
    ExecLine.parse "git-upload-pack 'github.com/acme/.github.git'" =
      .ok ⟨.uploadPack, "github.com", "acme/.github.git"⟩ := by
  have line : "  git-upload-pack\t/GitHub.com/acme/.github.git\n" = Layout.sample.line .uploadPack
      (fullName "GitHub.com".toList ["acme".toList, ".github.git".toList]) := by decide
  have other : "git-upload-pack 'github.COM/acme/.github.git'" = Layout.plain.line .uploadPack
      (fullName "github.COM".toList ["acme".toList, ".github.git".toList]) := by decide
  have written : "git-upload-pack 'github.com/acme/.github.git'" =
      ExecLine.canonical ⟨.uploadPack, "github.com", "acme/.github.git"⟩ := by decide
  have read : ExecLine.parse "  git-upload-pack\t/GitHub.com/acme/.github.git\n" =
      .ok ⟨.uploadPack, "github.com", "acme/.github.git"⟩ :=
    (exec_line_grammar.1 _ _).2 ⟨.sample, _, _, sample_nameSyntax, line, by decide, by decide⟩
  refine ⟨read, ?_, ?_⟩
  · rw [line, other]
    exact exec_line_grammar.2.1 .sample .plain .uploadPack _ _ _ sample_nameSyntax (by decide)
  · rw [written]
    exact exec_line_grammar.2.2 _ _ read

end ForgeGateway.Git
