import Mathlib.Data.String.Basic
import Syndication.Proofs.Results
import Syndication.Url.Basic

/-!
# Web addresses have a host

A URL whose scheme is `http` or `https` is refused unless a host can be read from it, and a host
that is read is a numeric address or a domain name with at least one character.

Main statement:

* `host_ne_of_parse`: no web address is read without a host.
-/

namespace Syndication.Url

variable {cs : List Char} {host : Host} {secure : Bool} {url : Url}

theorem bracketed_ne (h : bracketed cs = .ok host) : host ≠ .domain "" := by
  unfold bracketed at h
  split at h
  · split at h
    · cases h
      nofun
    · cases h
  · cases h

theorem readHost_ne (h : readHost cs = .ok host) : host ≠ .domain "" := by
  unfold readHost at h
  split at h
  · exact bracketed_ne h
  · split at h
    · cases h
    · cases h
    · next domain hnonempty _ =>
      split at h
      · split at h
        · cases h
          nofun
        · cases h
      · cases h
        intro hempty
        have hchars : String.ofList domain = "" := Host.domain.inj hempty
        exact hnonempty (String.ofList_eq_empty_iff.1 hchars)

/-- The authority of a web address has a host. -/
theorem exists_host_of_readAuthority {a : Authority} (h : readAuthority (.web secure) cs = .ok a) :
    ∃ host, a.host = some host ∧ host ≠ .domain "" := by
  -- the scheme is special, so only the branches with a host remain
  have hspecial : (Kind.web secure).isSpecial = true := rfl
  unfold readAuthority at h
  dsimp only at h
  split at h
  · cases h
  · split at h
    · cases h
    · obtain ⟨host, hhost, h⟩ := exists_of_bind_eq_ok h
      obtain ⟨port, -, h⟩ := exists_of_bind_eq_ok h
      cases h
      exact ⟨host, rfl, readHost_ne hhost⟩

theorem host_ne_of_readWeb (h : readWeb secure cs = .ok url) : url.host ≠ .domain "" := by
  unfold readWeb at h
  obtain ⟨a, hauthority, h⟩ := exists_of_bind_eq_ok h
  obtain ⟨host, hhost, hne⟩ := exists_host_of_readAuthority hauthority
  cases h
  show a.host.getD (.domain "") ≠ .domain ""
  rw [hhost]
  exact hne

/-- **No web address is read without a host.** -/
theorem host_ne_of_parse {raw : String} (h : parse raw = .ok (.web url)) :
    url.host ≠ .domain "" := by
  unfold parse at h
  dsimp only at h
  split at h
  · cases h
  · split at h
    case h_1 =>
      obtain ⟨read, hread, hurl⟩ := exists_of_map_eq_ok h
      cases hurl
      exact host_ne_of_readWeb hread
    -- a URL of another scheme is no web address
    case h_2 =>
      obtain ⟨_, _, h⟩ := exists_of_bind_eq_ok h
      cases h
    case h_3 =>
      obtain ⟨_, _, h⟩ := exists_of_bind_eq_ok h
      cases h
    case h_4 =>
      split at h
      · obtain ⟨_, _, h⟩ := exists_of_bind_eq_ok h
        cases h
      · cases h

end Syndication.Url
