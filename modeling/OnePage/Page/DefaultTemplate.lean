import OnePage.Template.Token

/-!
# The template of a page without one

`Page.defaultTemplate` is used when a site brings no template of its own: a document with a title
and a description from the site's data, the sections of `Page.defaultComponents` in order, and both
slots.
-/

namespace OnePage

namespace Page

/-- The sections of the default template. -/
def defaultComponents : List Text :=
  ["header", "hero", "services", "about", "testimonials", "faq", "contact", "footer"]

/-- The line that asks for a section. -/
def componentLine (name : Text) : Text :=
  "        " ++ Template.placeholder (Template.Token.componentHeading ++ name)

/-- Where the default template gets its fonts from. -/
def fonts : Text :=
  "https://fonts.googleapis.com/css2?family=Inter:wght@400;500;600;700" ++
    "&family=Plus+Jakarta+Sans:wght@500;600;700;800&display=swap"

/-- The lines before the sections. -/
def shellHead : List Text := [
  "<!DOCTYPE html>",
  "<html lang=\"pt-BR\">",
  "<head>",
  "    <meta charset=\"UTF-8\">",
  "    <meta name=\"viewport\" content=\"width=device-width, initial-scale=1.0\">",
  "    <title>{{site-config.site.name}}</title>",
  "    <meta name=\"description\" content=\"{{site-config.seo.description}}\">",
  "",
  "    <!-- Preconnect to external domains -->",
  "    <link rel=\"preconnect\" href=\"https://fonts.googleapis.com\">",
  "    <link rel=\"preconnect\" href=\"https://fonts.gstatic.com\" crossorigin>",
  "    <link rel=\"preconnect\" href=\"https://cdn.tailwindcss.com\">",
  "",
  "    <!-- Tailwind CSS -->",
  "    <script src=\"https://cdn.tailwindcss.com\"></script>",
  "",
  "    <!-- Google Fonts -->",
  "    <link href=\"" ++ fonts ++ "\" rel=\"stylesheet\">",
  "",
  "    {{CSS_LINKS}}",
  "</head>",
  "<body>",
  "    <main id=\"main-content\">"]

/-- The lines after the sections. -/
def shellFoot : List Text := [
  "    </main>",
  "",
  "    {{JS_SCRIPTS}}",
  "</body>",
  "</html>"]

/-- The default template. -/
def defaultTemplate : Text :=
  Text.join Text.newline (shellHead ++ defaultComponents.map componentLine ++ shellFoot)

end Page

end OnePage
