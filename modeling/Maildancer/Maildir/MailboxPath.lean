import Maildancer.Address
import Maildancer.Domains

namespace Maildancer.Maildir

open Text Queue Domains Msgstore

variable (st : StoreConfig)

def expandMailbox (mailbox : Bytes) : Bytes :=
  let (localpart, domain) := splitEmail mailbox
  if st.pathTemplate = [] then localpart
  else
    let result := replaceAll st.pathTemplate (ascii "\x7bdomain\x7d") domain
    let result := replaceAll result (ascii "\x7blocalpart\x7d") localpart
    replaceAll result (ascii "\x7bemail\x7d") mailbox

-- None is ErrPathTraversal.
def mailboxPath (mailbox : Bytes) : Option Bytes :=
  let expandedMailbox := expandMailbox st mailbox
  let candidate :=
    if st.maildirSubdir ≠ [] then joinPath [st.basePath, expandedMailbox, st.maildirSubdir]
    else joinPath [st.basePath, expandedMailbox]
  let cleanBase := cleanPath st.basePath
  let cleanCandidate := cleanPath candidate
  if hasPrefix (cleanBase ++ [slash]) (cleanCandidate ++ [slash]) then some cleanCandidate else none

-- No template, and at most one directory below the user's own.
structure UsualLayout : Prop where
  template : st.pathTemplate = []
  subdir : st.maildirSubdir = [] ∨ PlainName st.maildirSubdir

def belowBase (user : Bytes) : List Bytes := user :: if st.maildirSubdir = [] then [] else [st.maildirSubdir]

lemma splitEmail_address {user domain : Bytes} (hd : atSign ∉ domain) :
    splitEmail (user ++ atSign :: domain) = (user, domain) := by
  rw [splitEmail, cutLast_eq_some.mpr ⟨rfl, hd⟩]
  rfl

variable {st}

lemma UsualLayout.plain (hl : UsualLayout st) {user : Bytes} (hu : PlainName user) :
    ∀ n ∈ belowBase st user, PlainName n := by
  unfold belowBase
  obtain hs | hs := hl.subdir
  · simpa [hs] using hu
  · simpa [hs.ne_nil] using ⟨hu, hs⟩

lemma mailboxPath_usual (hl : UsualLayout st) {user domain : Bytes} (hu : PlainName user)
    (hd : atSign ∉ domain) : mailboxPath st (user ++ atSign :: domain) =
      if components st.basePath = [] then none else some (joinPath (st.basePath :: belowBase st user)) := by
  have hn := hl.plain hu
  have hne : belowBase st user ≠ [] := List.cons_ne_nil _ _
  have he : expandMailbox st (user ++ atSign :: domain) = user := by
    rw [expandMailbox, splitEmail_address hd]
    exact if_pos hl.template
  have hca : (if st.maildirSubdir ≠ [] then joinPath [st.basePath, user, st.maildirSubdir]
      else joinPath [st.basePath, user]) = joinPath (st.basePath :: belowBase st user) := by
    unfold belowBase
    by_cases hs : st.maildirSubdir = []
    · simp [hs]
    · simp [hs]
  have hcl := ((components_normal st.basePath).append hn).cleanPath_renderPath
  unfold mailboxPath
  dsimp only
  rw [he, hca, joinPath_names hne hn, hcl, cleanPath, hasPrefix_below hne hn]
  by_cases hr : components st.basePath = []
  · simp [hr]
  · simp [hr]

end Maildancer.Maildir
