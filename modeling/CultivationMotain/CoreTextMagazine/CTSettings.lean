import CultivationMotain.Foundation.Geometry

set_option autoImplicit false

namespace CultivationMotain.CoreTextMagazine

open Foundation

structure Screen where
  bounds : CGRect
  phone : Bool

structure CTSettings where
  margin : CGFloat
  columnsPerPage : CGFloat
  pageRect : CGRect
  columnRect : CGRect

def CTSettings.init (screen : Screen) : CTSettings :=
  let margin : CGFloat := 20
  let columnsPerPage : CGFloat := if screen.phone then 1 else 2
  let pageRect := screen.bounds.insetBy margin margin
  ⟨margin, columnsPerPage, pageRect,
    (CGRect.mk 0 0 (pageRect.width / columnsPerPage) pageRect.height).insetBy margin margin⟩

end CultivationMotain.CoreTextMagazine
