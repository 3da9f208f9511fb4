import RobotsixMill.Lib.CommitDag
import RobotsixMill.Lib.DelimitedText

/-!
# `Scm.Git` — commits, and what the mill reads of them

Git is a graph of commits with who wrote and who committed each. The mill asks of a commit whether a person
had a hand in it, and it learns that from the text of `git log`, one line a commit, the fields apart by
`|`. Names, addresses and subjects are free text.

- `isAutomationIdentity`, `Git.isHuman` — whose commit it is;
- `branchAncestry` — the commits of a branch ahead of its target, as read;
- `rangeCommitEmails` — the addresses of the commits of a range, as read;
- `emails_branchAncestry` — where no field has a separator in it, what is read is what is there.
-/

namespace RobotsixMill
namespace Scm
open Lib

/-- A commit id. -/
abbrev Sha := String

/-- What a commit says: who wrote it, who committed it, its subject line, and the change it makes. -/
structure CommitInfo where
  authorName : String
  authorEmail : String
  committerName : String
  committerEmail : String
  subject : String := ""
  patch : String := ""
deriving DecidableEq, Repr

/-- The commits there are. -/
structure Git where
  dag : CommitDag Sha
  info : Sha → CommitInfo

/-! ## Whose commit -/

def MILL_EMAILS : List String := ["mill@robotsix.local"]

/-- Shared by every GitHub App and Action. -/
def BOT_EMAIL_SUFFIX : String := "[bot]@users.noreply.github.com"

def GITHUB_API_COMMITTER : String := "noreply@github.com"

/-- `_is_automation_identity`. -/
def isAutomationIdentity (email : String) : Bool :=
  decide (email ∈ MILL_EMAILS) || endsWith email BOT_EMAIL_SUFFIX || decide (email = GITHUB_API_COMMITTER)

/-- Neither address is a person's. -/
def bothAutomation (author committer : String) : Bool :=
  isAutomationIdentity author && isAutomationIdentity committer

namespace Git

variable (g : Git)

/-- A person wrote or committed it. -/
def isHuman (c : Sha) : Bool := !bothAutomation (g.info c).authorEmail (g.info c).committerEmail

/-- `c'` is `c` made again on another commit: the same change by the same author. -/
def replays (c' c : Sha) : Prop :=
  (g.info c').patch = (g.info c).patch ∧ (g.info c').authorName = (g.info c).authorName ∧
    (g.info c').authorEmail = (g.info c).authorEmail ∧ (g.info c').subject = (g.info c).subject

/-- The history of `tip` has the commit, or has it made again. -/
def carries (tip c : Sha) : Prop := c ∈ g.dag.history tip ∨ ∃ c' ∈ g.dag.history tip, g.replays c' c

end Git

/-! ## The log, as text -/

/-- A line of `--format=%H|%an|%ae|%cn|%ce|%s`. -/
def logLine (sha : Sha) (info : CommitInfo) : List Char :=
  ['|'].intercalate [sha.toList, info.authorName.toList, info.authorEmail.toList,
    info.committerName.toList, info.committerEmail.toList, info.subject.toList]

/-- A commit as `branch_ancestry` reports it. -/
structure LoggedCommit where
  sha : Sha
  authorName : String
  authorEmail : String
  committerName : String
  committerEmail : String
  subject : String
deriving DecidableEq, Repr

/-- A line, read back: six fields, or none. -/
def parseLogLine (line : List Char) : Option LoggedCommit :=
  match splitMax '|' 5 line with
  | [sha, an, ae, cn, ce, s] =>
    some { sha := .ofList sha, authorName := .ofList an, authorEmail := .ofList ae
           committerName := .ofList cn, committerEmail := .ofList ce, subject := .ofList s }
  | _ => none

/-- The output of a command that prints these lines. -/
def commandOutput (lines : List (List Char)) : List Char := universalNewlines (['\n'].intercalate lines)

/-- `branch_ancestry`: the commits of `origin/<branch>` that are not on `origin/<target>`. -/
def branchAncestry (g : Git) (branch target : Sha) : List LoggedCommit :=
  let out := stripChars (commandOutput ((g.dag.range target branch).map fun c => logLine c (g.info c)))
  if out = [] then [] else (splitChar '\n' out).filterMap parseLogLine

/-- A line of `--format=%ae|%ce`. -/
def emailLine (info : CommitInfo) : List Char :=
  ['|'].intercalate [info.authorEmail.toList, info.committerEmail.toList]

/-- `_range_commit_emails`: the author's and the committer's address of each commit of `base..tip`. -/
def rangeCommitEmails (g : Git) (base tip : Sha) : List (String × String) :=
  let out := commandOutput ((g.dag.range base tip).map fun c => emailLine (g.info c))
  ((splitlinesGo [] out).map stripChars).filter (· ≠ []) |>.map fun line =>
    (.ofList (partitionChar '|' line).1, .ofList (partitionChar '|' line).2)

/-! ## Reading back -/

/-- The commit id is printable, and no field has a separator in it. -/
structure Git.Plain (g : Git) (c : Sha) : Prop where
  sha_ne : c ≠ ""
  sha : ∀ ch ∈ c.toList, isPySpace ch = false ∧ ch ≠ '|'
  authorName : '|' ∉ (g.info c).authorName.toList
  authorEmail : '|' ∉ (g.info c).authorEmail.toList
  committerName : '|' ∉ (g.info c).committerName.toList
  committerEmail : '|' ∉ (g.info c).committerEmail.toList
  oneLine : ∀ field ∈ [(g.info c).authorName, (g.info c).authorEmail, (g.info c).committerName,
    (g.info c).committerEmail, (g.info c).subject], '\n' ∉ field.toList ∧ '\r' ∉ field.toList

/-- The fields before the subject. -/
def logHead (sha : Sha) (info : CommitInfo) : List Char :=
  ['|'].intercalate [sha.toList, info.authorName.toList, info.authorEmail.toList,
    info.committerName.toList, info.committerEmail.toList]

theorem logLine_eq (sha : Sha) (info : CommitInfo) :
    logLine sha info = logHead sha info ++ '|' :: info.subject.toList := by
  simp [logLine, logHead, List.intercalate_cons_cons]

variable {g : Git}

/-- A plain line reads back, whatever stands for the subject. -/
theorem parseLogLine_of_plain {c : Sha} (h : g.Plain c) (subject : List Char) :
    parseLogLine (logHead c (g.info c) ++ '|' :: subject) =
      some { sha := c, authorName := (g.info c).authorName, authorEmail := (g.info c).authorEmail
             committerName := (g.info c).committerName, committerEmail := (g.info c).committerEmail
             subject := .ofList subject } := by
  have hsha : '|' ∉ c.toList := fun hbar => (h.sha '|' hbar).2 rfl
  unfold parseLogLine logHead
  simp only [List.intercalate_cons_cons, List.intercalate_singleton, List.append_assoc, List.cons_append,
    List.nil_append]
  rw [splitMax_cons hsha, splitMax_cons h.authorName, splitMax_cons h.authorEmail,
    splitMax_cons h.committerName, splitMax_cons h.committerEmail]
  simp [splitMax]

theorem not_mem_logHead {c : Sha} (h : g.Plain c) {ch : Char} (hch : ch = '\n' ∨ ch = '\r') :
    ch ∉ logHead c (g.info c) := by
  have hspace : isPySpace ch = true := by rcases hch with rfl | rfl <;> decide
  have hbar : ch ≠ '|' := by rcases hch with rfl | rfl <;> decide
  have hsha : ch ∉ c.toList := by
    intro hmem
    rw [(h.sha ch hmem).1] at hspace
    cases hspace
  have hfield : ∀ field ∈ [(g.info c).authorName, (g.info c).authorEmail, (g.info c).committerName,
      (g.info c).committerEmail, (g.info c).subject], ch ∉ field.toList := by
    intro field hmem
    rcases hch with rfl | rfl
    · exact (h.oneLine field hmem).1
    · exact (h.oneLine field hmem).2
  simp only [List.forall_mem_cons] at hfield
  simp [logHead, List.intercalate_cons_cons, hsha, hbar, hfield.1, hfield.2.1, hfield.2.2.1,
    hfield.2.2.2.1]

theorem not_mem_logLine {c : Sha} (h : g.Plain c) {ch : Char} (hch : ch = '\n' ∨ ch = '\r') :
    ch ∉ logLine c (g.info c) := by
  have hbar : ch ≠ '|' := by rcases hch with rfl | rfl <;> decide
  have hsubject : ch ∉ (g.info c).subject.toList := by
    have hline := h.oneLine (g.info c).subject (by simp)
    rcases hch with rfl | rfl
    · exact hline.1
    · exact hline.2
  rw [logLine_eq, List.mem_append, List.mem_cons]
  exact not_or.2 ⟨not_mem_logHead h hch, not_or.2 ⟨hbar, hsubject⟩⟩

theorem mem_intercalate_cons {α : Type} {a : α} {sep l : List α} {ls : List (List α)} (h : a ∈ l) :
    a ∈ sep.intercalate (l :: ls) := by
  cases ls with
  | nil => rwa [List.intercalate_singleton]
  | cons l' ls =>
      rw [List.intercalate_cons_cons, List.append_assoc]
      exact List.mem_append_left _ h

theorem rstripChars_append_bar (cs rest : List Char) :
    rstripChars (cs ++ '|' :: rest) = cs ++ '|' :: rstripChars rest := by
  have hbar : isPySpace '|' = false := by decide
  have hrest : rstripChars ('|' :: rest) = '|' :: rstripChars rest := by
    unfold rstripChars
    rw [List.reverse_cons, List.dropWhile_append]
    split
    · rename_i hnil
      rw [List.isEmpty_iff] at hnil
      simp [hnil, hbar]
    · simp
  rw [rstripChars_append, hrest]
  rw [hrest]
  exact List.cons_ne_nil _ _

theorem stripChars_eq_rstripChars {cs : List Char} (h : ∀ c ∈ cs.head?, isPySpace c = false) :
    stripChars cs = rstripChars cs := by
  unfold stripChars rstripChars
  cases cs with
  | nil => rfl
  | cons c cs => rw [List.dropWhile_cons, if_neg (by simp [h c rfl])]

/-- The lines of these commits, the last subject stripped at its end. -/
def trimmedLines (g : Git) : List Sha → List (List Char)
  | [] => []
  | [c] => [logHead c (g.info c) ++ '|' :: rstripChars (g.info c).subject.toList]
  | c :: c' :: cs => logLine c (g.info c) :: trimmedLines g (c' :: cs)

theorem trimmedLines_ne_nil (c : Sha) (cs : List Sha) : trimmedLines g (c :: cs) ≠ [] := by
  cases cs <;> simp [trimmedLines]

theorem rstripChars_lines (c : Sha) (cs : List Sha) :
    rstripChars (['\n'].intercalate ((c :: cs).map fun c => logLine c (g.info c))) =
      ['\n'].intercalate (trimmedLines g (c :: cs)) := by
  induction cs generalizing c with
  | nil =>
      rw [List.map_singleton, List.intercalate_singleton, trimmedLines, List.intercalate_singleton,
        logLine_eq, rstripChars_append_bar]
  | cons c' cs ih =>
      obtain ⟨line, lines, hlines⟩ := List.exists_cons_of_ne_nil (trimmedLines_ne_nil (g := g) c' cs)
      have ih' := ih c'
      rw [List.map_cons] at ih'
      rw [List.map_cons, List.map_cons, List.intercalate_cons_cons, trimmedLines, hlines,
        List.intercalate_cons_cons, ← hlines, ← ih']
      refine rstripChars_append ?_
      -- the bars of the next line stay
      refine List.ne_nil_of_mem (mem_rstripChars (c := '|') ?_ (by decide))
      refine mem_intercalate_cons ?_
      rw [logLine_eq]
      simp

theorem mem_intercalate {α : Type} {a : α} {sep : List α} {ls : List (List α)}
    (h : a ∈ sep.intercalate ls) : a ∈ sep ∨ ∃ l ∈ ls, a ∈ l := by
  induction ls with
  | nil => cases h
  | cons l ls ih =>
      cases ls with
      | nil =>
          rw [List.intercalate_singleton] at h
          exact .inr ⟨l, List.mem_cons_self, h⟩
      | cons l' ls =>
          rw [List.intercalate_cons_cons, List.append_assoc, List.mem_append, List.mem_append] at h
          rcases h with h | h | h
          · exact .inr ⟨l, List.mem_cons_self, h⟩
          · exact .inl h
          · exact (ih h).imp_right fun ⟨l, hl, ha⟩ => ⟨l, List.mem_cons_of_mem _ hl, ha⟩

/-- The addresses a line gives. -/
def LoggedCommit.emails (l : LoggedCommit) : String × String := (l.authorEmail, l.committerEmail)

/-- The addresses a commit has. -/
def Git.emails (g : Git) (c : Sha) : String × String := ((g.info c).authorEmail, (g.info c).committerEmail)

theorem emails_trimmedLines {cs : List Sha} (h : ∀ c ∈ cs, g.Plain c) :
    ((trimmedLines g cs).filterMap parseLogLine).map LoggedCommit.emails = cs.map g.emails := by
  induction cs with
  | nil => rfl
  | cons c cs ih =>
      have hc := h c List.mem_cons_self
      cases cs with
      | nil =>
          rw [trimmedLines, List.filterMap_cons, parseLogLine_of_plain hc]
          rfl
      | cons c' cs =>
          have ih' := ih fun d hd => h d (List.mem_cons_of_mem _ hd)
          rw [trimmedLines, logLine_eq, List.filterMap_cons, parseLogLine_of_plain hc]
          simp only [List.map_cons] at ih' ⊢
          rw [ih']
          rfl

theorem not_mem_trimmedLines {cs : List Sha} (h : ∀ c ∈ cs, g.Plain c) :
    ∀ line ∈ trimmedLines g cs, '\n' ∉ line := by
  induction cs with
  | nil => simp [trimmedLines]
  | cons c cs ih =>
      have hc := h c List.mem_cons_self
      have hline := not_mem_logLine hc (.inl rfl)
      cases cs with
      | nil =>
          rw [logLine_eq, List.mem_append, List.mem_cons] at hline
          obtain ⟨hhead, hrest⟩ := not_or.1 hline
          obtain ⟨hbar, hsubject⟩ := not_or.1 hrest
          intro line hl
          rw [trimmedLines, List.mem_singleton] at hl
          rw [hl, List.mem_append, List.mem_cons]
          refine not_or.2 ⟨hhead, not_or.2 ⟨hbar, ?_⟩⟩
          intro hmem
          unfold rstripChars at hmem
          rw [List.mem_reverse] at hmem
          exact hsubject (List.mem_reverse.1 ((List.dropWhile_suffix _).subset hmem))
      | cons c' cs =>
          rw [trimmedLines]
          exact List.forall_mem_cons.2 ⟨hline, ih fun d hd => h d (List.mem_cons_of_mem _ hd)⟩

/-- The lines of plain commits start with a visible character and have no `\r`. -/
theorem commandOutput_of_plain {c : Sha} {cs : List Sha} (h : ∀ d ∈ c :: cs, g.Plain d) :
    stripChars (commandOutput ((c :: cs).map fun c => logLine c (g.info c))) =
      ['\n'].intercalate (trimmedLines g (c :: cs)) := by
  have hc := h c List.mem_cons_self
  have hcr : '\r' ∉ ['\n'].intercalate ((c :: cs).map fun c => logLine c (g.info c)) := by
    intro hmem
    rcases mem_intercalate hmem with hsep | ⟨line, hline, hmem⟩
    · simp at hsep
    · obtain ⟨d, hd, rfl⟩ := List.mem_map.1 hline
      exact not_mem_logLine (h d hd) (.inr rfl) hmem
  rw [commandOutput, universalNewlines_of_not_mem hcr, stripChars_eq_rstripChars, rstripChars_lines]
  -- the id of the first commit comes first
  obtain ⟨ch, rest, hsha⟩ := List.exists_cons_of_ne_nil
    (show c.toList ≠ [] from fun hnil => hc.sha_ne (String.toList_eq_nil_iff.1 hnil))
  have hvisible := (hc.sha ch (by rw [hsha]; exact List.mem_cons_self)).1
  have hhead : (['\n'].intercalate ((c :: cs).map fun c => logLine c (g.info c))).head? = some ch := by
    cases cs <;> simp [logLine, List.intercalate_cons_cons, hsha]
  intro d hd
  rw [hhead] at hd
  cases hd
  exact hvisible

/-- **What is read is what is there**, if the commits are plain. -/
theorem emails_branchAncestry {branch target : Sha}
    (h : ∀ c ∈ g.dag.range target branch, g.Plain c) :
    (branchAncestry g branch target).map LoggedCommit.emails =
      (g.dag.range target branch).map g.emails := by
  unfold branchAncestry
  cases hcs : g.dag.range target branch with
  | nil => rfl
  | cons c cs =>
      rw [hcs] at h
      dsimp only
      rw [commandOutput_of_plain h]
      have hne := trimmedLines_ne_nil (g := g) c cs
      have hout : ['\n'].intercalate (trimmedLines g (c :: cs)) ≠ [] := by
        intro hnil
        have hsplit := splitChar_intercalate hne (not_mem_trimmedLines h)
        rw [hnil] at hsplit
        have hemails := emails_trimmedLines h
        rw [← hsplit] at hemails
        simp [splitChar, parseLogLine, splitMax] at hemails
      rw [if_neg hout, splitChar_intercalate hne (not_mem_trimmedLines h), emails_trimmedLines h]

/-! ## A small history -/

/-- A target `t`; on it a commit `h` of a person's and one `m` of the mill's; and one, `k`, of the mill's
    on `h`. -/
def forked : Git where
  dag :=
    { parents := fun c => if c = "h" ∨ c = "m" then ["t"] else if c = "k" then ["h"] else []
      height := fun c => if c = "k" then 2 else if c = "h" ∨ c = "m" then 1 else 0
      height_lt := by
        intro c p hp
        split at hp
        · rename_i hc
          rw [List.mem_singleton.1 hp]
          rcases hc with rfl | rfl <;> decide
        · split at hp
          · rename_i hc
            rw [List.mem_singleton.1 hp, hc]
            decide
          · cases hp }
  info := fun c =>
    if c = "h" then
      { authorName := "Ann", authorEmail := "ann@example.org", committerName := "Ann"
        committerEmail := "ann@example.org", subject := "fix by hand", patch := "by hand" }
    else
      { authorName := "mill", authorEmail := "mill@robotsix.local", committerName := "mill"
        committerEmail := "mill@robotsix.local", patch := c }

theorem forked_history :
    forked.dag.history "h" = ["h", "t"] ∧ forked.dag.history "m" = ["m", "t"] ∧
      forked.dag.history "k" = ["k", "h", "t"] := by decide +kernel

end Scm
end RobotsixMill
