import Shortcode.FrontMatter
import Shortcode.Menu.Basic
import Shortcode.Site.Files

/-!
# Pages

The pages of a site are the files `*.md` in a folder and in the folders below it. The
route of a page is its path, read from that folder, without the ending; a page called
`index` stands for the folder it is in. The menu lists the pages by their routes, each with
the fields of its front matter. Files that are no text are left out, and a page whose front
matter is malformed has no fields.

Pages are found under the folder as it is written, but without a `.` at its start. So a
folder that is written with one leads to none of them, and the menu is empty.

* `menu_perm`: the menu holds the pages that were found, in another order.
-/

namespace Shortcode

/-- The ending of the name of a page. -/
def pageEnding : Text := ".md".toList

/-- The name of a page without its ending; `none` if it is no name of a page. A name that
    is an ending alone stays as it is, and a lone dot in front of the ending stands for the
    folder above. -/
def pageStem? (name : Text) : Option Text :=
  match Text.after? pageEnding.reverse name.reverse with
  | some [] => some name
  | some ['.'] => some ['.', '.']
  | some stem => some stem.reverse
  | none => none

/-- The name of a page that stands for its folder. -/
def indexName : Text := "index".toList

/-- The route of a page in a folder. -/
def route (folder : List Text) (stem : Text) : Text :=
  '/' :: Text.join ['/'] (if stem = indexName then folder else folder ++ [stem])

/-- The route of the page at a path, where all pages are in the folder `source`; `none` if
    the path does not lead through that folder, or to no page. -/
def pageRoute? (source path : Text) : Option Text := do
  let names ← Path.relative? source path
  let name ← names.getLast?
  let stem ← pageStem? name
  pure (route names.dropLast stem)

/-- The file of a page: the names that lead to its folder, its own name and its bytes. -/
structure PageFile where
  folder : List Text
  name : Text
  bytes : ByteArray

namespace PageFile

/-- The names that lead to a page. -/
def names (p : PageFile) : List Text :=
  p.folder ++ [p.name]

/-- The path of a page, from the folder it is found under. -/
def path (p : PageFile) (found : Text) : Text :=
  p.names.foldl Path.join found

/-- The place in the menu of a page that is found under the folder `found`, where all pages
    are in the folder `source`; `none` if it has no route or is no text. -/
def item? (source found : Text) (p : PageFile) : Option MenuItem := do
  let route ← pageRoute? source (p.path found)
  let text ← (Files.decode p.bytes).toOption
  pure ⟨route, ((FrontMatter.read? text).map (·.1)).getD Table.empty⟩

end PageFile

namespace FileNode

mutual

/-- The files in a file or a folder with a name. -/
def pageFiles (folder : List Text) (name : Text) : FileNode → List PageFile
  | .file bytes => [⟨folder, name, bytes⟩]
  | .folder entries => pageFilesIn (folder ++ [name]) entries

/-- The files in the entries of a folder. -/
def pageFilesIn (folder : List Text) : List (Text × FileNode) → List PageFile
  | [] => []
  | (name, node) :: entries => node.pageFiles folder name ++ pageFilesIn folder entries

end

end FileNode

/-- The menu of pages that are found under a folder: by their routes, and of equal ones by
    their paths. -/
def menuOf (source found : Text) (files : List PageFile) : List MenuItem :=
  ((files.mergeSort fun a b => !decide (b.names < a.names)).filterMap
    (PageFile.item? source found)).mergeSort fun a b => Text.le a.path b.path

/-- The menu holds the pages that were found, in another order. -/
theorem menu_perm (source found : Text) (files : List PageFile) :
    (menuOf source found files).Perm (files.filterMap (PageFile.item? source found)) :=
  (List.mergeSort_perm _ _).trans ((List.mergeSort_perm _ _).filterMap _)

/-- The path of a folder that pages are found under: without a `.` at its start. -/
def foundUnder (folder : Text) : Text :=
  if (Path.splitStart folder).1 = ['.'] then Text.join ['/'] (Path.parts folder) else folder

/-- The menu of the pages in a folder. -/
def Files.menu (files : Files) (folder : Text) : List MenuItem :=
  match files.find folder with
  | .ok place =>
    menuOf folder (foundUnder folder) (((files.entries? place).getD []).flatMap
      fun (name, node) => node.pageFiles [] name)
  | .error _ => []

end Shortcode
