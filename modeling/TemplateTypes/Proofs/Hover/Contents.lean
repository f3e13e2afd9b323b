import TemplateTypes.Hover.Contents

namespace TemplateTypes.Hover

open Text

end TemplateTypes.Hover
