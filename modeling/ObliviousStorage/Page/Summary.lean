import ObliviousStorage.Page.Header

/-!
Contract: a page summed up in one line of text.

Owns: the wording of the summary.

Does not own: the contents of the page beyond its header.
-/

namespace ObliviousStorage.Page

/-- The header's words by name and the number of slots; a page that was never
formatted has neither. -/
def summary (page : Page) : String :=
  if page.isUnformatted then
    "Page::New"
  else
    let lower := page.lower
    let upper := page.upper
    let special := page.special
    let flags := page.flags
    let tag := page.tag
    let slots := page.slotCount
    let header :=
      s!"lower: {lower}, upper: {upper}, special: {special}, flags: {flags}, tag: {tag}"
    s!"Page \x7b header: PageHeader \x7b {header} \x7d, max_offset: {slots} \x7d"

end ObliviousStorage.Page
